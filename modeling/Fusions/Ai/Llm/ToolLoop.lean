import Fusions.Ai.Llm.Meanings
import Fusions.Ai.Llm.TokenUsage

/-! The replies of the two wires as chat messages, and what the next requests of a tool loop say of them. -/
namespace Fusions.Ai.Llm
open Fusions.Hetuflow Fusions.Library

inductive LlmProviderId where
  | qwen | deepSeek | openAi | anthropic | gemini
  deriving DecidableEq, Repr

def LlmProviderId.asStr : LlmProviderId → String
  | .qwen => "dashscope"
  | .deepSeek => "deepseek"
  | .openAi => "openai"
  | .anthropic => "anthropic"
  | .gemini => "gemini"

/-- `LlmError`, as far as the reading of a response goes. -/
inductive LlmError where
  | noChoice (provider : LlmProviderId)
  deriving DecidableEq, Repr

/-- The result of a tool, with the id of the call that it answers. -/
def ChatMessage.tool (toolCallId content : String) : ChatMessage := ⟨.tool, content, [], some toolCallId⟩

structure ChatCompletionResponse where
  model : String
  message : ChatMessage
  usage : Option TokenUsage
  providerMetadata : Json

/-! The response of Chat Completions. -/

structure WireToolCall where
  id : Option String
  name : String
  arguments : String

structure WireMessage where
  role : Option String
  content : Option String
  toolCalls : List WireToolCall

structure WireChoice where
  finishReason : Option String
  message : WireMessage

structure WireChatCompletionResponse where
  id : Option String
  model : Option String
  choices : List WireChoice
  usage : Option TokenUsage
  /-- The other fields. -/
  extra : List (String × Json)

def roleParsed : Option String → ChatRole
  | some "system" => .system
  | some "user" => .user
  | some "tool" => .tool
  | _ => .assistant

def usageJson (usage : TokenUsage) : Json :=
  .obj [("prompt_tokens", .num usage.promptTokens.toNat), ("completion_tokens", .num usage.completionTokens.toNat),
    ("total_tokens", .num usage.totalTokens.toNat), ("cached_input_tokens", .num usage.cachedInputTokens.toNat)]

namespace WireChatCompletionResponse
variable (parsed : WireChatCompletionResponse)

def metadata (provider : LlmProviderId) (model : String) : List (String × Json) :=
  let metadata := [("provider", .str provider.asStr), ("model", .str model)]
  let metadata := insertOption metadata "response_id" (parsed.id.map .str)
  let metadata := insertOption metadata "finish_reason" ((parsed.choices.head?.bind (·.finishReason)).map .str)
  let metadata := insertOption metadata "usage" (parsed.usage.map usageJson)
  parsed.extra.foldl (fun metadata entry =>
    if ["choices", "usage", "model", "id"].contains entry.1 then metadata
    else Json.insert metadata entry.1 entry.2) metadata

def intoResponse (provider : LlmProviderId) (defaultModel : String) : Option ChatCompletionResponse := do
  let model := parsed.model.getD defaultModel
  let choice ← parsed.choices.head?
  let message := choice.message
  return {
    model := model
    message := ⟨roleParsed message.role, message.content.getD "",
      message.toolCalls.map fun call => ⟨call.id, call.name, call.arguments⟩, none⟩
    usage := parsed.usage
    providerMetadata := .obj (parsed.metadata provider model) }

end WireChatCompletionResponse

/-! The response of the Responses wire. -/

inductive ResponseStatus where
  | inProgress | completed | failed | cancelled | queued | incomplete
  deriving DecidableEq, Repr

/-- `{:?}`. -/
def ResponseStatus.debug : ResponseStatus → String
  | .inProgress => "InProgress"
  | .completed => "Completed"
  | .failed => "Failed"
  | .cancelled => "Cancelled"
  | .queued => "Queued"
  | .incomplete => "Incomplete"

inductive Output where
  | message (content : List Responses.AssistantContent)
  | functionCall (call : Responses.OutputFunctionCall)
  | reasoning (id : String) (summary : List String)

def outputText : Responses.AssistantContent → Core.AssistantContent
  | .outputText text | .refusal text => .text text

/-- The contents of an output item. -/
def Output.assistantContent : Output → List Core.AssistantContent
  | .message content => content.map outputText
  | .functionCall call => [.toolCall ⟨call.id, some call.callId, ⟨call.name, call.arguments⟩, none, none⟩]
  | .reasoning id summary => [.reasoning ⟨some id, [.summary ("\n".intercalate summary)]⟩]

structure CompletionResponse where
  id : String
  status : ResponseStatus
  usage : Option ResponsesUsage
  output : List Output

def textOf : Core.AssistantContent → Option String
  | .text text => some text
  | _ => none

section
-- `Value::to_string` and `serde_json::from_str`
variable (toText : Json → String) (fromStr : String → Option Json)

/-- A call, with the key that its result is to have. -/
def toolCallOf : Core.AssistantContent → Option ToolCall
  | .toolCall call =>
    some ⟨some ((call.callId.filter (· != "")).getD call.id), call.function.name, toText call.function.arguments⟩
  | _ => none

def responsesToChat (provider : LlmProviderId) (defaultModel : String) (requestedModel : Option String)
    (parsed : CompletionResponse) : Except LlmError ChatCompletionResponse :=
  let contents := parsed.output.flatMap Output.assistantContent
  let content := String.join (contents.filterMap textOf)
  let toolCalls := contents.filterMap (toolCallOf toText)
  if content = "" ∧ toolCalls = [] then .error (.noChoice provider)
  else .ok {
    model := requestedModel.getD defaultModel
    message := ⟨.assistant, content, toolCalls, none⟩
    usage := parsed.usage.map ResponsesUsage.tokenUsage
    providerMetadata := .obj [("object", .str "chat.completion.via_responses"), ("response_id", .str parsed.id),
      ("status", .str parsed.status.debug)] }

/-! A tool loop, whose requests each have the replies before them and the results of their calls. -/

inductive Reply where
  | chat (parsed : WireChatCompletionResponse)
  | responses (parsed : CompletionResponse)

def Reply.read (provider : LlmProviderId) (defaultModel : String) (requestedModel : Option String) :
    Reply → Option ChatCompletionResponse
  | .chat parsed => parsed.intoResponse provider defaultModel
  | .responses parsed => (responsesToChat toText provider defaultModel requestedModel parsed).toOption

/-- A reply, and the outputs of the tools that it calls. -/
structure Round where
  provider : LlmProviderId
  reply : Reply
  outputs : List String

/-- The results of the calls of a message, each with the id of its call. -/
def results (message : ChatMessage) (outputs : List String) : List ChatMessage :=
  message.toolCalls.zipWith (fun call output => .tool (call.id.getD "") output) outputs

/-- The request after a round. -/
def Round.extend (defaultModel : String) (req : ChatCompletionRequest) (round : Round) :
    Option ChatCompletionRequest := do
  let response ← round.reply.read toText round.provider defaultModel req.model
  return { req with messages := req.messages ++ response.message :: results response.message round.outputs }

def converse (defaultModel : String) (rounds : List Round) (req : ChatCompletionRequest) :
    Option ChatCompletionRequest :=
  rounds.foldlM (Round.extend toText defaultModel) req

/-! What the replies say, as the providers wrote them. -/

def wireCallTurn (call : WireToolCall) : Turn := .call (call.id.getD "") call.name (fromStr call.arguments)

/-- The call of an item, under its call id, or under its own id if it has none. -/
def outputCall : Output → Option Turn
  | .functionCall call =>
    some (.call (if call.callId = "" then call.id else call.callId) call.name (some call.arguments))
  | .message _ | .reasoning .. => none

def outputTexts : Output → List String
  | .message content => content.map fun
    | .outputText text | .refusal text => text
  | .functionCall _ | .reasoning .. => []

def Reply.calls : Reply → List Turn
  | .chat parsed =>
    parsed.choices.head?.toList.flatMap fun choice => choice.message.toolCalls.map (wireCallTurn fromStr)
  | .responses parsed => parsed.output.filterMap outputCall

def Reply.content : Reply → String
  | .chat parsed => ((parsed.choices.head?.bind (·.message.content)).getD "")
  | .responses parsed => String.join (parsed.output.flatMap outputTexts)

/-- The text of the assistant, which is left out if it is empty beside calls, and then the calls. -/
def Reply.turns (reply : Reply) : List Turn :=
  (if reply.content = "" ∧ reply.calls fromStr ≠ [] then [] else [.text "assistant" reply.content]) ++
    reply.calls fromStr

/-- A call has JSON arguments. -/
def Turn.Argued : Turn → Prop
  | .call _ _ arguments => arguments.isSome = true
  | .text .. | .result .. => True

def Turn.key : Turn → String
  | .call id _ _ => id
  | .text .. | .result .. => ""

/-- A reply, and for each call its result under the key of the call. -/
def Round.turns (round : Round) : List Turn :=
  round.reply.turns fromStr ++
    (round.reply.calls fromStr).zipWith (fun call output => .result call.key output) round.outputs

/-- What asks for the same, after more turns. -/
def Meaning.more (meaning : Meaning) (turns : List Turn) : Meaning := { meaning with turns := meaning.turns ++ turns }

/-- A reply of the assistant; the arguments of its calls are read back as they are written. -/
def Reply.Sound : Reply → Prop
  | .chat parsed => ∀ choice ∈ parsed.choices.head?, roleParsed choice.message.role = .assistant
  | .responses parsed => ∀ call, .functionCall call ∈ parsed.output →
    fromStr (toText call.arguments) = some call.arguments

end

section
variable {toText : Json → String} {fromStr : String → Option Json}

theorem Meaning.more_nil (meaning : Meaning) : meaning.more [] = meaning := by
  rw [Meaning.more, List.append_nil]

theorem Meaning.more_more (meaning : Meaning) (turns later : List Turn) :
    (meaning.more turns).more later = meaning.more (turns ++ later) :=
  congrArg (fun all => { meaning with turns := all }) (List.append_assoc ..)

theorem textOf_outputs (output : List Output) :
    (output.flatMap Output.assistantContent).filterMap textOf = output.flatMap outputTexts := by
  induction output with
  | nil => rfl
  | cons item output ih =>
    rw [List.flatMap_cons, List.flatMap_cons, List.filterMap_append, ih]
    cases item with
    | message content =>
      congr 1
      simp only [Output.assistantContent, outputTexts, List.filterMap_map]
      induction content with
      | nil => rfl
      | cons part content ih => cases part <;> simpa [textOf, outputText] using ih
    | functionCall | reasoning => rfl

theorem chatCall_outputs {output : List Output} (h : ∀ call, .functionCall call ∈ output →
    fromStr (toText call.arguments) = some call.arguments) :
    ((output.flatMap Output.assistantContent).filterMap (toolCallOf toText)).map (chatCall fromStr) =
      output.filterMap outputCall := by
  induction output with
  | nil => rfl
  | cons item output ih =>
    have hrest := ih fun call hcall => h call (List.mem_cons_of_mem _ hcall)
    rw [List.flatMap_cons, List.filterMap_append, List.map_append, hrest]
    cases item with
    | message content =>
      have hnone : (Output.message content).assistantContent.filterMap (toolCallOf toText) = [] := by
        refine List.filterMap_eq_nil_iff.2 fun part hpart => ?_
        obtain ⟨text, -, rfl⟩ := List.mem_map.1 hpart
        cases text <;> rfl
      rw [hnone, List.filterMap_cons_none rfl]
      rfl
    | functionCall call =>
      have harguments := h call List.mem_cons_self
      by_cases hid : call.callId = "" <;>
        simp [Output.assistantContent, toolCallOf, chatCall, outputCall, harguments, hid, Option.filter_some]
    | reasoning => rfl

theorem saying_assistant (fromStr : String → Option Json) {message : ChatMessage} (hrole : message.role = .assistant) :
    message.saying = if message.content = "" ∧ message.toolCalls.map (chatCall fromStr) ≠ [] then []
      else [.text "assistant" message.content] := by
  cases hcalls : message.toolCalls <;> simp [ChatMessage.saying, hrole, hcalls, ChatRole.asStr]

/-- A message that was read says what the reply does. -/
theorem Reply.read_says {reply : Reply} {provider : LlmProviderId} {defaultModel : String}
    {requestedModel : Option String} {response : ChatCompletionResponse} (hsound : reply.Sound toText fromStr)
    (h : reply.read toText provider defaultModel requestedModel = some response) :
    response.message.role = .assistant ∧ response.message.content = reply.content ∧
      response.message.toolCalls.map (chatCall fromStr) = reply.calls fromStr := by
  cases reply with
  | chat parsed =>
    rw [Reply.read, WireChatCompletionResponse.intoResponse] at h
    cases hchoice : parsed.choices.head? with
    | none =>
      rw [hchoice] at h
      cases h
    | some choice =>
      rw [hchoice] at h
      obtain rfl := Option.some.inj h
      refine ⟨hsound choice hchoice, ?_, ?_⟩
      · simp [Reply.content, hchoice]
      · simp [Reply.calls, hchoice, Function.comp_def, chatCall, wireCallTurn]
  | responses parsed =>
    rw [Reply.read, responsesToChat] at h
    split at h
    · cases h
    · obtain rfl := Option.some.inj h
      exact ⟨rfl, congrArg String.join (textOf_outputs parsed.output), chatCall_outputs hsound⟩

theorem results_turns (calls : List ToolCall) (outputs : List String) :
    ((calls.zipWith (fun call output => ChatMessage.tool (call.id.getD "") output) outputs).flatMap fun message =>
      message.saying ++ message.toolCalls.map (chatCall fromStr)) =
        (calls.map (chatCall fromStr)).zipWith (fun call output => .result call.key output) outputs := by
  induction calls generalizing outputs with
  | nil => rfl
  | cons call calls ih =>
    cases outputs with
    | nil => rfl
    | cons output outputs =>
      rw [List.zipWith_cons_cons, List.flatMap_cons, ih, List.map_cons, List.zipWith_cons_cons]
      rfl

/-- The turns of the messages of a round. -/
theorem Round.turns_eq {round : Round} {defaultModel : String} {requestedModel : Option String}
    {response : ChatCompletionResponse} (hsound : round.reply.Sound toText fromStr)
    (h : round.reply.read toText round.provider defaultModel requestedModel = some response) :
    ((response.message :: results response.message round.outputs).flatMap fun message =>
      message.saying ++ message.toolCalls.map (chatCall fromStr)) = round.turns fromStr := by
  obtain ⟨hrole, hcontent, hcalls⟩ := Reply.read_says hsound h
  rw [List.flatMap_cons, results, results_turns, saying_assistant fromStr hrole, hcontent, hcalls,
    Round.turns, Reply.turns]

/-- The messages of a round are sent with their calls on either wire, and are encoded on the Responses wire. -/
theorem Round.sent {round : Round} {defaultModel : String} {requestedModel : Option String}
    {response : ChatCompletionResponse} (hsound : round.reply.Sound toText fromStr)
    (h : round.reply.read toText round.provider defaultModel requestedModel = some response) (message : ChatMessage)
    (hmessage : message ∈ response.message :: results response.message round.outputs) :
    message.sent = message ∧ (message = response.message ∨ message.toolCalls = []) := by
  obtain ⟨hrole, -, -⟩ := Reply.read_says hsound h
  rcases List.mem_cons.1 hmessage with rfl | hmessage
  · exact ⟨if_pos hrole, .inl rfl⟩
  · rw [results, List.mem_iff_getElem] at hmessage
    obtain ⟨i, hi, rfl⟩ := hmessage
    rw [List.getElem_zipWith]
    exact ⟨rfl, .inr rfl⟩

/-- A message that the Responses wire encodes. -/
def ChatMessage.Encodes (fromStr : String → Option Json) (debug : Core.UserContent → String) (message : ChatMessage) :
    Prop :=
  ∃ core items, toCore fromStr message = .ok core ∧ Responses.tryFromMessage debug core = .ok items

theorem encodes_assistant {message : ChatMessage} (debug : Core.UserContent → String)
    (hrole : message.role = .assistant) : message.Encodes fromStr debug := by
  have hconverts : ∀ content : Core.OneOrMany Core.AssistantContent,
      (∀ part ∈ content.toList, ∃ item, Responses.convertAssistantContent none part = .ok item) →
        ∃ items, Responses.tryFromMessage debug (.assistant none content) = .ok items := by
    intro content hparts
    refine encodeAll_isOk fun part hpart => ?_
    obtain ⟨item, hitem⟩ := hparts part hpart
    exact ⟨[item], by rw [hitem]; rfl⟩
  unfold ChatMessage.Encodes
  rw [toCore, hrole]
  by_cases hcalls : message.toolCalls = []
  · obtain ⟨items, hitems⟩ := hconverts (.one (.text message.content)) (List.forall_mem_singleton.2 ⟨_, rfl⟩)
    exact ⟨_, items, by simp [hcalls], hitems⟩
  · simp only [List.isEmpty_eq_false_iff.2 hcalls, Bool.false_eq_true, if_false]
    generalize hparts : (if message.content = "" then [] else [Core.AssistantContent.text message.content]) ++
      message.toolCalls.map (fun call => .toolCall (toCoreCall fromStr call)) = parts
    cases hmany : Core.OneOrMany.many parts with
    | none =>
      have hempty : parts = [] := by cases parts <;> simp_all [Core.OneOrMany.many]
      rw [hempty, List.append_eq_nil_iff, List.map_eq_nil_iff] at hparts
      exact absurd hparts.2 hcalls
    | some content =>
      obtain ⟨items, hitems⟩ := hconverts content fun part hpart => by
        rw [Core.OneOrMany.toList_of_many hmany, ← hparts, List.mem_append] at hpart
        rcases hpart with hpart | hpart
        · split at hpart
          · cases hpart
          · exact ⟨_, by rw [List.mem_singleton.1 hpart]; rfl⟩
        · obtain ⟨call, -, rfl⟩ := List.mem_map.1 hpart
          exact ⟨_, rfl⟩
      exact ⟨_, items, rfl, hitems⟩

theorem fromHistory_of_rel {debug : Core.UserContent → String} {model : String} {preamble : Option String}
    {history : List Core.Message} {tools : List Core.ToolDefinition} {toolChoice : Option Core.ToolChoice}
    {temperature : Option Float} {maxTokens : Option UInt64} {first : Responses.InputItem}
    {rest : List Responses.InputItem} {wire : Option WireToolChoice}
    (hitems : Responses.fullHistory debug history = .ok (first :: rest))
    (hwire : Option.Rel (fun choice wire => WireToolChoice.tryFrom choice = .ok wire) toolChoice wire) :
    CompletionRequest.fromHistory debug model preamble history tools toolChoice temperature maxTokens =
      .ok ⟨⟨first, rest⟩, model, preamble, maxTokens, temperature, wire, tools.map .ofCore⟩ := by
  rw [CompletionRequest.fromHistory, hitems]
  cases hwire with
  | none => rfl
  | some htry =>
    change ((WireToolChoice.tryFrom _).map some >>= fun wire => _) = _
    rw [htry]
    rfl

theorem encodes_round {debug : Core.UserContent → String} {round : Round} {defaultModel : String}
    {requestedModel : Option String} {response : ChatCompletionResponse} (hsound : round.reply.Sound toText fromStr)
    (h : round.reply.read toText round.provider defaultModel requestedModel = some response) {message : ChatMessage}
    (hmessage : message ∈ response.message :: results response.message round.outputs) :
    message.Encodes fromStr debug := by
  obtain ⟨hrole, -, -⟩ := Reply.read_says hsound h
  rcases List.mem_cons.1 hmessage with rfl | hmessage
  · exact encodes_assistant debug hrole
  · rw [results, List.mem_iff_getElem] at hmessage
    obtain ⟨i, hi, rfl⟩ := hmessage
    rw [List.getElem_zipWith]
    exact ⟨_, _, rfl, rfl⟩

/-- A request that is built is built with more messages that are encoded. -/
theorem responsesRequest_append {debug : Core.UserContent → String} {defaultModel : String}
    {req : ChatCompletionRequest} {request : CompletionRequest}
    (h : responsesRequest fromStr debug defaultModel req = .ok request) {more : List ChatMessage}
    (hmore : ∀ message ∈ more, message.Encodes fromStr debug) :
    ∃ request', responsesRequest fromStr debug defaultModel { req with messages := req.messages ++ more } =
      .ok request' := by
  have hencoded : ∃ cores items, chatHistoryToCore fromStr more = .ok cores ∧
      Responses.fullHistory debug cores = .ok items := by
    clear h
    induction more with
    | nil => exact ⟨[], [], rfl, rfl⟩
    | cons message more ih =>
      obtain ⟨⟨core, items, hcore, hitems⟩, hrest⟩ := List.forall_mem_cons.1 hmore
      obtain ⟨cores, rest, hcores, hall⟩ := ih hrest
      refine ⟨core :: cores, items ++ rest, ?_, ?_⟩
      · rw [chatHistoryToCore, encodeEach, encodeAll, hcore, ← encodeEach, ← chatHistoryToCore, hcores]
        rfl
      · rw [Responses.fullHistory, encodeAll, hitems, ← Responses.fullHistory, hall]
        rfl
  obtain ⟨cores, items, hcores, hitems⟩ := hencoded
  obtain ⟨history, hhistory, h⟩ := bind_eq_ok h
  obtain ⟨input, wire, hinput, hwire, -⟩ := fromHistory_eq_ok (mapError_eq_ok h)
  have hcore : chatHistoryToCore fromStr (req.messages ++ more) = .ok (history ++ cores) :=
    encodeAll_append (mapError_eq_ok hhistory) hcores
  have hall : Responses.fullHistory debug (history ++ cores) = .ok (input.toList ++ items) :=
    encodeAll_append hinput hitems
  unfold responsesRequest
  dsimp only
  rw [hcore]
  change ∃ request', (CompletionRequest.fromHistory ..).mapError _ = .ok request'
  rw [fromHistory_of_rel hall hwire]
  exact ⟨_, rfl⟩

theorem Round.extend_eq_some {round : Round} {defaultModel : String} {req next : ChatCompletionRequest}
    (h : round.extend toText defaultModel req = some next) : ∃ response,
      round.reply.read toText round.provider defaultModel req.model = some response ∧
      next = { req with messages := req.messages ++ response.message :: results response.message round.outputs } := by
  obtain ⟨response, hread, hnext⟩ := Option.bind_eq_some_iff.1 h
  exact ⟨response, hread, (Option.some.inj hnext).symm⟩

/-- The body on Chat Completions after a round. -/
theorem Round.chatMeaning_extend (ofF64 : Float → Json) {round : Round} {defaultModel : String}
    {req next : ChatCompletionRequest} (hsound : round.reply.Sound toText fromStr)
    (h : round.extend toText defaultModel req = some next) :
    chatMeaning fromStr (buildRequestBody ofF64 defaultModel next) =
      (chatMeaning fromStr (buildRequestBody ofF64 defaultModel req)).more (round.turns fromStr) := by
  obtain ⟨response, hread, rfl⟩ := Round.extend_eq_some h
  rw [chatMeaning_buildRequestBody, chatMeaning_buildRequestBody, List.flatMap_append, Round.turns_eq hsound hread,
    ← List.append_assoc]
  rfl

/-- The turns of messages that are sent with their calls, whose arguments are JSON. -/
theorem responsesTurns_eq {messages : List ChatMessage} (hsent : ∀ message ∈ messages, message.sent = message)
    (hargued : ∀ message ∈ messages, ∀ call ∈ message.toolCalls, (fromStr call.arguments).isSome = true) :
    (messages.flatMap fun message => message.sent.saying ++ message.sent.toolCalls.map (responsesCall fromStr)) =
      messages.flatMap fun message => message.saying ++ message.toolCalls.map (chatCall fromStr) :=
  (turns_eq_iff.2 ⟨fun message hmessage => sent_eq_iff.1 (hsent message hmessage), hargued⟩).symm

/-- The request on the Responses wire after a round. -/
theorem Round.responsesMeaning_extend (ofF64 : Float → Json) {debug : Core.UserContent → String} {round : Round}
    {defaultModel : String} {req next : ChatCompletionRequest} {request : CompletionRequest}
    (hsound : round.reply.Sound toText fromStr) (hargued : ∀ turn ∈ round.reply.calls fromStr, turn.Argued)
    (h : round.extend toText defaultModel req = some next)
    (hrequest : responsesRequest fromStr debug defaultModel req = .ok request) :
    ∃ request', responsesRequest fromStr debug defaultModel next = .ok request' ∧
      responsesMeaning ofF64 request' = (responsesMeaning ofF64 request).more (round.turns fromStr) := by
  obtain ⟨response, hread, rfl⟩ := Round.extend_eq_some h
  obtain ⟨hrole, -, hcalls⟩ := Reply.read_says hsound hread
  have hsent := Round.sent hsound hread
  obtain ⟨request', hrequest'⟩ := responsesRequest_append hrequest fun message hmessage =>
    encodes_round hsound hread hmessage
  have harguments : ∀ message ∈ response.message :: results response.message round.outputs,
      ∀ call ∈ message.toolCalls, (fromStr call.arguments).isSome = true := by
    intro message hmessage call hcall
    rcases (hsent message hmessage).2 with rfl | hnone
    · have hturn : chatCall fromStr call ∈ round.reply.calls fromStr := by
        rw [← hcalls]
        exact List.mem_map_of_mem hcall
      exact hargued _ hturn
    · rw [hnone] at hcall
      cases hcall
  refine ⟨request', hrequest', ?_⟩
  rw [responsesMeaning_responsesRequest hrequest', responsesMeaning_responsesRequest hrequest, List.flatMap_append,
    responsesTurns_eq (fun message hmessage => (hsent message hmessage).1) harguments, Round.turns_eq hsound hread,
    ← List.append_assoc]
  rfl

/-- A tool loop closes on either wire, and if the wire changes between its rounds. The next request asks for what the
first does, after the text and the calls of each reply and the results of these calls, each under the key of its call. On
the Responses wire the calls are to have JSON arguments, and the next request is built if the first is. -/
theorem tool_loop_closes (ofF64 : Float → Json) {debug : Core.UserContent → String} {defaultModel : String}
    {rounds : List Round} {req next : ChatCompletionRequest}
    (hsound : ∀ round ∈ rounds, round.reply.Sound toText fromStr)
    (h : converse toText defaultModel rounds req = some next) :
    chatMeaning fromStr (buildRequestBody ofF64 defaultModel next) =
      (chatMeaning fromStr (buildRequestBody ofF64 defaultModel req)).more (rounds.flatMap (Round.turns fromStr)) ∧
    ((∀ round ∈ rounds, ∀ turn ∈ round.reply.calls fromStr, turn.Argued) → ∀ request,
      responsesRequest fromStr debug defaultModel req = .ok request →
        ∃ request', responsesRequest fromStr debug defaultModel next = .ok request' ∧
          responsesMeaning ofF64 request' =
            (responsesMeaning ofF64 request).more (rounds.flatMap (Round.turns fromStr))) := by
  induction rounds generalizing req with
  | nil =>
    obtain rfl := Option.some.inj h
    exact ⟨(Meaning.more_nil _).symm, fun _ request hrequest => ⟨request, hrequest, (Meaning.more_nil _).symm⟩⟩
  | cons round rounds ih =>
    rw [converse, List.foldlM_cons] at h
    obtain ⟨mid, hmid, h⟩ := Option.bind_eq_some_iff.1 h
    obtain ⟨hround, hrest⟩ := List.forall_mem_cons.1 hsound
    obtain ⟨hchat, hresponses⟩ := ih hrest h
    constructor
    · rw [hchat, Round.chatMeaning_extend ofF64 hround hmid, Meaning.more_more, List.flatMap_cons]
    · intro hargued request hrequest
      obtain ⟨hargued, hlater⟩ := List.forall_mem_cons.1 hargued
      obtain ⟨request', hrequest', hmeaning⟩ := Round.responsesMeaning_extend ofF64 hround hargued hmid hrequest
      obtain ⟨final, hfinal, hlast⟩ := hresponses hlater request' hrequest'
      exact ⟨final, hfinal, by rw [hlast, hmeaning, Meaning.more_more, List.flatMap_cons]⟩

end

/-- A call on the Responses wire without a call id, and then one on Chat Completions. -/
def weatherRounds : List Round :=
  [⟨.qwen, .responses ⟨"resp_1", .completed, none,
      [.reasoning "rs_1" ["Look it up."], .functionCall ⟨"fc_2", .obj [], "", "get_weather", .completed⟩]⟩, ["Windy"]⟩,
    ⟨.openAi, .chat ⟨none, none, [⟨some "tool_calls", ⟨none, some "Again.",
      [⟨some "call_3", "get_weather", "\x7b\x7d"⟩]⟩⟩], none, []⟩, ["Calm"]⟩]

/-- The rounds after a question; each result has the key of its call. -/
theorem tool_loop_closes_weather : ∃ next request',
    converse (fun _ => "\x7b\x7d") "qwen" weatherRounds (weatherRequest none) = some next ∧
    responsesRequest emptyObject (fun _ => "") "qwen" next = .ok request' ∧
    (responsesMeaning (fun _ => .null) request').turns.drop 4 =
      [.call "fc_2" "get_weather" (some (.obj [])), .result "fc_2" "Windy", .text "assistant" "Again.",
        .call "call_3" "get_weather" (some (.obj [])), .result "call_3" "Calm"] := by
  have hnext : ∃ next, converse (fun _ => "\x7b\x7d") "qwen" weatherRounds (weatherRequest none) = some next :=
    ⟨_, rfl⟩
  obtain ⟨next, hnext⟩ := hnext
  have hrequest : ∃ request, responsesRequest emptyObject (fun _ => "") "qwen" (weatherRequest none) = .ok request :=
    ⟨_, rfl⟩
  obtain ⟨request, hrequest⟩ := hrequest
  have hsound : ∀ round ∈ weatherRounds, round.reply.Sound (fun _ => "\x7b\x7d") emptyObject := by
    simp [weatherRounds, Reply.Sound, roleParsed, emptyObject]
  have hargued : ∀ round ∈ weatherRounds, ∀ turn ∈ round.reply.calls emptyObject, turn.Argued := by
    simp [weatherRounds, Reply.calls, outputCall, wireCallTurn, Turn.Argued, emptyObject]
  obtain ⟨request', hrequest', hmeaning⟩ :=
    (tool_loop_closes (fun _ => .null) hsound hnext).2 hargued request hrequest
  refine ⟨next, request', hnext, hrequest', ?_⟩
  rw [hmeaning, responsesMeaning_responsesRequest hrequest]
  rfl

end Fusions.Ai.Llm
