import Mathlib.Data.List.Basic
import Fusions.Ai.Llm.Wires

/-! What the bodies of the two wires ask for, and the requests for which they ask the same. -/
namespace Fusions.Ai.Llm
open Fusions.Hetuflow Fusions.Library

/-- A step of the conversation: a text of a role, a tool call with its arguments if they are JSON, or a tool result. -/
inductive Turn where
  | text (role : String) (content : String)
  | call (id name : String) (arguments : Option Json)
  | result (callId : String) (output : String)
  deriving Repr

structure ToolMeaning where
  name : String
  description : String
  parameters : Json
  deriving Repr

/-- What a body asks for. The system instructions are the first turn; a missing text is an empty one. -/
structure Meaning where
  model : String
  turns : List Turn
  tools : List ToolMeaning
  toolChoice : Option Json
  temperature : Option Json
  maxTokens : Option Json
  deriving Repr

def textAt (j : Json) (key : String) : String := ((j.get key).bind Json.asStr).getD ""

def valueAt (j : Json) (key : String) : Json := (j.get key).getD .null

def asArray : Json → List Json
  | .arr items => items
  | _ => []

section
variable (fromStr : String → Option Json)

def callTurn (call : Json) : Turn :=
  let function := valueAt call "function"
  .call (textAt call "id") (textAt function "name") (fromStr (textAt function "arguments"))

/-- The turns of a message of Chat Completions. Beside tool calls, an empty content is none. -/
def messageTurns (message : Json) : List Turn :=
  let calls := (asArray (valueAt message "tool_calls")).map (callTurn fromStr)
  let content := textAt message "content"
  let role := textAt message "role"
  (if role = "tool" then [.result (textAt message "tool_call_id") content]
    else if content = "" ∧ calls.isEmpty = false then [] else [.text role content]) ++ calls

def toolMeaning (tool : Json) : ToolMeaning :=
  let function := valueAt tool "function"
  ⟨textAt function "name", textAt function "description", valueAt function "parameters"⟩

def chatMeaning (body : Json) : Meaning where
  model := textAt body "model"
  turns := (asArray (valueAt body "messages")).flatMap (messageTurns fromStr)
  tools := (asArray (valueAt body "tools")).map toolMeaning
  toolChoice := body.get "tool_choice"
  temperature := body.get "temperature"
  maxTokens := body.get "max_tokens"

end

def userTurn : Responses.UserContent → List Turn
  | .inputText text => [.text "user" text]
  | .inputImage .. | .inputFile .. => []

def assistantTurn : Responses.AssistantContent → Turn
  | .outputText text | .refusal text => .text "assistant" text

/-- The turns of an item of the Responses wire. The arguments of a call are written as the text of their value. -/
def itemTurns (item : Responses.InputItem) : List Turn :=
  match item.input with
  | .message (.system content _) => content.toList.map fun c => .text "system" c.text
  | .message (.user content _) => content.toList.flatMap userTurn
  | .message (.assistant content _ _ _) => content.toList.map assistantTurn
  | .functionCall call => [.call call.callId call.name (some call.arguments)]
  | .functionCallOutput result => [.result result.callId result.output]
  | .reasoning _ => []

def responsesMeaning (ofF64 : Float → Json) (request : CompletionRequest) : Meaning where
  model := request.model
  turns := (request.instructions.toList.map fun text => .text "system" text) ++ request.input.toList.flatMap itemTurns
  tools := request.tools.map fun tool => ⟨tool.name, tool.description, tool.parameters⟩
  toolChoice := request.toolChoice.map fun choice => .str choice.asStr
  temperature := request.temperature.map ofF64
  maxTokens := request.maxOutputTokens.map fun mt => .num mt.toNat

/-- The requests whose bodies ask for the same: no cap on the output, tool schemas that strict mode leaves as they are,
and tool calls of the assistant only, with JSON arguments. -/
structure Agreeing (fromStr : String → Option Json) (req : ChatCompletionRequest) : Prop where
  maxTokens : req.maxTokens = none
  schemas : ∀ tool ∈ req.tools, addPropsFalse tool.parameters = tool.parameters
  callers : ∀ message ∈ req.messages, message.role ≠ .assistant → message.toolCalls = []
  arguments : ∀ message ∈ req.messages, ∀ call ∈ message.toolCalls, (fromStr call.arguments).isSome

/-! The body of Chat Completions. -/

section
variable {fields : List (String × Json)} {key : String} {value : Option Json}

theorem lookup_insertOption (k : String) : (insertOption fields key value).lookup k =
    if k = key then value.or (fields.lookup key) else fields.lookup k := by
  cases value with
  | none => by_cases hk : k = key <;> simp [insertOption, hk]
  | some value => exact Json.lookup_insert k

end

section
variable {fromStr : String → Option Json}

/-- The turns of a message, without the calls. -/
def ChatMessage.saying (message : ChatMessage) : List Turn :=
  if message.role = .tool then [.result (message.toolCallId.getD "") message.content]
  else if message.content = "" ∧ message.toolCalls.isEmpty = false then []
  else [.text message.role.asStr message.content]

def chatCall (fromStr : String → Option Json) (call : ToolCall) : Turn :=
  .call (call.id.getD "") call.name (fromStr call.arguments)

def responsesCall (fromStr : String → Option Json) (call : ToolCall) : Turn :=
  .call (call.id.getD "") call.name (some ((fromStr call.arguments).getD (.obj [])))

theorem callTurn_toolCallJson (call : ToolCall) : callTurn fromStr (toolCallJson call) = chatCall fromStr call := by
  simp [callTurn, toolCallJson, chatCall, valueAt, textAt, Json.get, Json.lookup_cons_eq]

theorem textAt_messageJson (message : ChatMessage) : textAt (messageJson message) "role" = message.role.asStr ∧
    textAt (messageJson message) "content" = message.content ∧
    textAt (messageJson message) "tool_call_id" = message.toolCallId.getD "" := by
  refine ⟨?_, ?_, ?_⟩
  · simp [textAt, messageJson, Json.get, lookup_insertOption]
  · simp [textAt, messageJson, Json.get, lookup_insertOption, Json.lookup_cons_eq]
  · cases hid : message.toolCallId with
    | none => simp [textAt, messageJson, Json.get, lookup_insertOption, Json.lookup_cons_eq, hid]
    | some callId =>
      by_cases hempty : callId = "" <;>
        simp [textAt, messageJson, Json.get, lookup_insertOption, Json.lookup_cons_eq, hid, hempty, Option.filter_some]

theorem calls_messageJson (message : ChatMessage) :
    asArray (valueAt (messageJson message) "tool_calls") = message.toolCalls.map toolCallJson := by
  cases hcalls : message.toolCalls <;>
    simp [valueAt, messageJson, Json.get, lookup_insertOption, Json.lookup_cons_eq, hcalls, asArray]

theorem messageTurns_messageJson (message : ChatMessage) :
    messageTurns fromStr (messageJson message) = message.saying ++ message.toolCalls.map (chatCall fromStr) := by
  obtain ⟨hrole, hcontent, hid⟩ := textAt_messageJson message
  have hcalls : (asArray (valueAt (messageJson message) "tool_calls")).map (callTurn fromStr) =
      message.toolCalls.map (chatCall fromStr) := by
    rw [calls_messageJson, List.map_map]
    exact List.map_congr_left fun call _ => callTurn_toolCallJson call
  have htool : message.role.asStr = "tool" ↔ message.role = .tool := by
    cases message.role <;> decide
  simp only [messageTurns, hcalls, hrole, hcontent, hid, htool, List.isEmpty_map, ChatMessage.saying]

theorem messageTurns_systemJson (text : String) :
    messageTurns fromStr (.obj [("role", .str "system"), ("content", .str text)]) = [.text "system" text] := by
  simp [messageTurns, textAt, valueAt, asArray, Json.get, Json.lookup_cons_eq]

theorem toolMeaning_toolJson (tool : ToolDefinition) :
    toolMeaning (toolJson tool) = ⟨tool.name, tool.description.getD "", tool.parameters⟩ := by
  cases hdescription : tool.description <;>
    simp [toolMeaning, toolJson, hdescription, valueAt, textAt, Json.get, Json.lookup_insert, lookup_insertOption,
      Json.lookup_cons_eq]

/-- What the body of Chat Completions asks for. -/
theorem chatMeaning_buildRequestBody (ofF64 : Float → Json) (defaultModel : String) (req : ChatCompletionRequest) :
    chatMeaning fromStr (buildRequestBody ofF64 defaultModel req) =
      { model := req.modelOr defaultModel
        turns := (req.preamble.toList.map fun text => .text "system" text) ++
          req.messages.flatMap fun message => message.saying ++ message.toolCalls.map (chatCall fromStr)
        tools := req.tools.map fun tool => ⟨tool.name, tool.description.getD "", tool.parameters⟩
        toolChoice := req.toolChoice.map toolChoiceJson
        temperature := req.temperature.map fun t => ofF64 t.toFloat
        maxTokens := req.maxTokens.map fun mt => .num mt.toNat } := by
  have hmessages : asArray (valueAt (buildRequestBody ofF64 defaultModel req) "messages") =
      (req.preamble.toList.map fun text => .obj [("role", .str "system"), ("content", .str text)]) ++
        req.messages.map messageJson := by
    simp [buildRequestBody, valueAt, asArray, Json.get, lookup_insertOption, Json.lookup_cons_eq]
  have htools : asArray (valueAt (buildRequestBody ofF64 defaultModel req) "tools") = req.tools.map toolJson := by
    cases htools : req.tools <;>
      simp [buildRequestBody, valueAt, asArray, Json.get, lookup_insertOption, Json.lookup_cons_eq, htools]
  simp only [chatMeaning, hmessages, htools, List.flatMap_append, List.flatMap_map, List.map_map,
    messageTurns_systemJson, messageTurns_messageJson, ← List.map_eq_flatMap, Function.comp_def, toolMeaning_toolJson]
  simp [buildRequestBody, textAt, Json.get, lookup_insertOption, Json.lookup_cons_eq]


/-! The body of the Responses wire. -/

/-- A message as far as this wire sends it: tool calls of the assistant only. -/
def ChatMessage.sent (message : ChatMessage) : ChatMessage :=
  if message.role = .assistant then message else { message with toolCalls := [] }

def contentTurns : Core.AssistantContent → List Turn
  | .text text => [.text "assistant" text]
  | .toolCall call => [.call (call.callId.getD "") call.function.name (some call.function.arguments)]
  | .reasoning _ | .image _ => []

theorem itemTurns_of_convertAssistantContent {id : Option String} {content : Core.AssistantContent}
    {item : Responses.InputItem} (h : Responses.convertAssistantContent id content = .ok item) :
    itemTurns item = contentTurns content := by
  cases content with
  | text | toolCall =>
    obtain rfl := Except.ok.inj h
    rfl
  | reasoning reasoning =>
    rw [Responses.convertAssistantContent] at h
    cases hid : reasoning.id <;> rw [hid] at h <;> cases h
    rfl
  | image => cases h

theorem toCore_assistant {message : ChatMessage} {core : Core.Message} (hrole : message.role = .assistant)
    (h : toCore fromStr message = .ok core) : ∃ content, core = .assistant none content ∧
      content.toList.flatMap contentTurns = message.saying ++ message.toolCalls.map (responsesCall fromStr) := by
  rw [toCore, hrole] at h
  by_cases hcalls : message.toolCalls = []
  · simp only [hcalls, List.isEmpty_nil, if_true] at h
    refine ⟨_, (Except.ok.inj h).symm, ?_⟩
    simp [ChatMessage.saying, hrole, hcalls, Core.OneOrMany.toList_one, contentTurns, ChatRole.asStr]
  · simp only [List.isEmpty_eq_false_iff.2 hcalls, Bool.false_eq_true, if_false] at h
    generalize hparts : (if message.content = "" then [] else [Core.AssistantContent.text message.content]) ++
      message.toolCalls.map (fun call => .toolCall (toCoreCall fromStr call)) = parts at h
    cases hmany : Core.OneOrMany.many parts with
    | none =>
      rw [hmany] at h
      cases h
    | some content =>
      rw [hmany] at h
      refine ⟨content, (Except.ok.inj h).symm, ?_⟩
      have hturns (call : ToolCall) :
          contentTurns (.toolCall (toCoreCall fromStr call)) = [responsesCall fromStr call] := rfl
      rw [Core.OneOrMany.toList_of_many hmany, ← hparts, List.flatMap_append, List.flatMap_map, List.map_eq_flatMap]
      simp only [hturns]
      by_cases hempty : message.content = "" <;>
        simp [ChatMessage.saying, hrole, hcalls, hempty, contentTurns, ChatRole.asStr]

theorem itemTurns_of_tryFromMessage {debug : Core.UserContent → String} {message : ChatMessage} {core : Core.Message}
    {items : List Responses.InputItem} (hcore : toCore fromStr message = .ok core)
    (hitems : Responses.tryFromMessage debug core = .ok items) :
    items.flatMap itemTurns = message.sent.saying ++ message.sent.toolCalls.map (responsesCall fromStr) := by
  cases hrole : message.role with
  | system | user =>
    rw [toCore, hrole] at hcore
    obtain rfl := Except.ok.inj hcore
    obtain rfl := Except.ok.inj hitems
    simp [ChatMessage.sent, ChatMessage.saying, hrole, itemTurns, Core.OneOrMany.toList_one, ChatRole.asStr,
      Responses.userItem, userTurn]
  | tool =>
    rw [toCore, hrole] at hcore
    cases hid : message.toolCallId with
    | none =>
      rw [hid] at hcore
      cases hcore
    | some callId =>
      rw [hid] at hcore
      obtain rfl := Except.ok.inj hcore
      obtain rfl := Except.ok.inj hitems
      simp [ChatMessage.sent, ChatMessage.saying, hrole, itemTurns, hid]
  | assistant =>
    obtain ⟨content, rfl, hcontent⟩ := toCore_assistant hrole hcore
    have hsent : message.sent = message := if_pos hrole
    rw [hsent, ← hcontent]
    exact flatMap_encodeEach (fun part _ item => itemTurns_of_convertAssistantContent) hitems

/-- A request that is built has the items of the history, and the tool choice that the wire has for the one asked for. -/
theorem fromHistory_eq_ok {debug : Core.UserContent → String} {model : String} {preamble : Option String}
    {history : List Core.Message} {tools : List Core.ToolDefinition} {toolChoice : Option Core.ToolChoice}
    {temperature : Option Float} {maxTokens : Option UInt64} {request : CompletionRequest}
    (h : CompletionRequest.fromHistory debug model preamble history tools toolChoice temperature maxTokens =
      .ok request) :
    ∃ input wire, Responses.fullHistory debug history = .ok input.toList ∧
      Option.Rel (fun choice wire => WireToolChoice.tryFrom choice = .ok wire) toolChoice wire ∧
      request = ⟨input, model, preamble, maxTokens, temperature, wire, tools.map .ofCore⟩ := by
  obtain ⟨items, hitems, h⟩ := bind_eq_ok h
  cases hmany : Core.OneOrMany.many items with
  | none => simp [hmany] at h
  | some input =>
    rw [← Core.OneOrMany.toList_of_many hmany] at hitems
    simp only [hmany] at h
    cases toolChoice with
    | none => exact ⟨input, none, hitems, .none, (Except.ok.inj h).symm⟩
    | some choice =>
      obtain ⟨toolChoice, htoolChoice, h⟩ := bind_eq_ok h
      cases hwire : WireToolChoice.tryFrom choice with
      | error e => simp [hwire, Except.map] at htoolChoice
      | ok wire =>
        rw [hwire] at htoolChoice
        obtain rfl := Except.ok.inj htoolChoice
        exact ⟨input, some wire, hitems, .some hwire, (Except.ok.inj h).symm⟩

theorem toolChoiceJson_of_tryFrom {toolChoice : Option ToolChoice} {wire : Option WireToolChoice}
    (h : Option.Rel (fun choice wire => WireToolChoice.tryFrom choice = .ok wire) (toolChoice.map toCoreToolChoice) wire) :
    wire.map (fun choice => .str choice.asStr) = toolChoice.map toolChoiceJson := by
  cases toolChoice with
  | none =>
    cases h
    rfl
  | some choice =>
    cases h with
    | some hwire =>
      cases choice with
      | auto | required =>
        obtain rfl := Except.ok.inj hwire
        rfl
      | function name => cases hwire

/-- What the body of the Responses wire asks for. -/
theorem responsesMeaning_responsesRequest {ofF64 : Float → Json} {debug : Core.UserContent → String}
    {defaultModel : String} {req : ChatCompletionRequest} {request : CompletionRequest}
    (h : responsesRequest fromStr debug defaultModel req = .ok request) :
    responsesMeaning ofF64 request =
      { model := req.modelOr defaultModel
        turns := (req.preamble.toList.map fun text => .text "system" text) ++
          req.messages.flatMap fun message =>
            message.sent.saying ++ message.sent.toolCalls.map (responsesCall fromStr)
        tools := req.tools.map fun tool => ⟨tool.name, tool.description.getD "", addPropsFalse tool.parameters⟩
        toolChoice := req.toolChoice.map toolChoiceJson
        temperature := req.temperature.map fun t => ofF64 t.toFloat
        maxTokens := none } := by
  obtain ⟨history, hhistory, h⟩ := bind_eq_ok h
  obtain ⟨input, wire, hitems, hwire, rfl⟩ := fromHistory_eq_ok (mapError_eq_ok h)
  have hturns : input.toList.flatMap itemTurns = req.messages.flatMap fun message =>
      message.sent.saying ++ message.sent.toolCalls.map (responsesCall fromStr) :=
    flatMap_encodeAll_encodeEach (fun message _ core items => itemTurns_of_tryFromMessage) (mapError_eq_ok hhistory)
      hitems
  simp [responsesMeaning, hturns, toolChoiceJson_of_tryFrom hwire, toCoreTool, ResponsesToolDefinition.ofCore,
    Function.comp_def]

/-! Where the two agree. -/

def Turn.isCall : Turn → Bool
  | .call .. => true
  | .text .. | .result .. => false

theorem calls_saying (message : ChatMessage) : message.saying.filter Turn.isCall = [] := by
  unfold ChatMessage.saying
  split
  · rfl
  · split <;> rfl

/-- The calls among the turns of some messages. -/
theorem calls_turns (call : ToolCall → Turn) (hcall : ∀ c, (call c).isCall = true) (messages : List ChatMessage) :
    (messages.flatMap fun message => message.saying ++ message.toolCalls.map call).filter Turn.isCall =
      (messages.flatMap ChatMessage.toolCalls).map call := by
  have hcalls (calls : List ToolCall) : (calls.map call).filter Turn.isCall = calls.map call :=
    List.filter_eq_self.2 fun turn hturn => by
      obtain ⟨c, -, rfl⟩ := List.mem_map.1 hturn
      exact hcall c
  induction messages with
  | nil => rfl
  | cons message messages ih =>
    rw [List.flatMap_cons, List.filter_append, List.filter_append, calls_saying, hcalls, ih, List.flatMap_cons,
      List.map_append, List.nil_append]

theorem sent_eq_iff {message : ChatMessage} :
    message.sent = message ↔ (message.role ≠ .assistant → message.toolCalls = []) := by
  by_cases hrole : message.role = .assistant
  · simp [ChatMessage.sent, hrole]
  · rw [ChatMessage.sent, if_neg hrole]
    constructor
    · exact fun h _ => (congrArg ChatMessage.toolCalls h).symm
    · intro h
      rw [← h hrole]

theorem length_sent (message : ChatMessage) : message.sent.toolCalls.length ≤ message.toolCalls.length ∧
    (message.sent.toolCalls.length = message.toolCalls.length → message.sent = message) := by
  by_cases hrole : message.role = .assistant
  · simp [ChatMessage.sent, hrole]
  · have hnone : message.sent.toolCalls = [] := congrArg ChatMessage.toolCalls (if_neg hrole)
    rw [hnone, sent_eq_iff]
    exact ⟨Nat.zero_le _, fun h _ => List.eq_nil_of_length_eq_zero h.symm⟩

theorem length_calls_sent (messages : List ChatMessage) :
    ((messages.map ChatMessage.sent).flatMap ChatMessage.toolCalls).length ≤
      (messages.flatMap ChatMessage.toolCalls).length := by
  induction messages with
  | nil => exact Nat.le_refl 0
  | cons message messages ih =>
    obtain ⟨hle, -⟩ := length_sent message
    simp only [List.map_cons, List.flatMap_cons, List.length_append]
    omega

/-- As many calls are sent as there are only if each message is sent with its calls. -/
theorem sent_eq_of_length {messages : List ChatMessage}
    (h : ((messages.map ChatMessage.sent).flatMap ChatMessage.toolCalls).length =
      (messages.flatMap ChatMessage.toolCalls).length) : ∀ message ∈ messages, message.sent = message := by
  induction messages with
  | nil => exact List.forall_mem_nil _
  | cons message messages ih =>
    obtain ⟨hle, heq⟩ := length_sent message
    have hrest := length_calls_sent messages
    simp only [List.map_cons, List.flatMap_cons, List.length_append] at h
    exact List.forall_mem_cons.2 ⟨heq (by omega), ih (by omega)⟩

theorem chatCall_eq_iff {call : ToolCall} :
    chatCall fromStr call = responsesCall fromStr call ↔ (fromStr call.arguments).isSome = true := by
  cases hparsed : fromStr call.arguments <;> simp [chatCall, responsesCall, hparsed]

/-- The turns agree exactly if the assistant alone has tool calls, with JSON arguments. -/
theorem turns_eq_iff {messages : List ChatMessage} :
    (messages.flatMap fun message => message.saying ++ message.toolCalls.map (chatCall fromStr)) =
      (messages.flatMap fun message => message.sent.saying ++ message.sent.toolCalls.map (responsesCall fromStr)) ↔
    (∀ message ∈ messages, message.role ≠ .assistant → message.toolCalls = []) ∧
      ∀ message ∈ messages, ∀ call ∈ message.toolCalls, (fromStr call.arguments).isSome = true := by
  simp only [← sent_eq_iff]
  constructor
  · intro h
    have hcalls := congrArg (List.filter Turn.isCall) h
    rw [calls_turns (chatCall fromStr) fun _ => rfl] at hcalls
    have hresponses := calls_turns (responsesCall fromStr) (fun _ => rfl) (messages.map ChatMessage.sent)
    rw [List.flatMap_map] at hresponses
    rw [hresponses] at hcalls
    have hlength := congrArg List.length hcalls
    rw [List.length_map, List.length_map] at hlength
    have hsent := sent_eq_of_length hlength.symm
    refine ⟨hsent, fun message hmessage call hcall => chatCall_eq_iff.1 ?_⟩
    rw [List.map_congr_left hsent, List.map_id'] at hcalls
    exact List.map_inj_left.1 hcalls call (List.mem_flatMap.2 ⟨message, hmessage, hcall⟩)
  · rintro ⟨hsent, harguments⟩
    refine List.flatMap_congr fun message hmessage => ?_
    rw [hsent message hmessage]
    exact congrArg (message.saying ++ ·) (List.map_congr_left fun call hcall =>
      chatCall_eq_iff.2 (harguments message hmessage call hcall))

/-- The two bodies, where the Responses wire has one, ask for the same exactly if the request sets no cap, the schemas
of its tools are left as they are, and only the assistant has tool calls, with JSON arguments. -/
theorem same_request_iff {ofF64 : Float → Json} {debug : Core.UserContent → String} {defaultModel : String}
    {req : ChatCompletionRequest} {request : CompletionRequest}
    (h : responsesRequest fromStr debug defaultModel req = .ok request) :
    chatMeaning fromStr (buildRequestBody ofF64 defaultModel req) = responsesMeaning ofF64 request ↔
      Agreeing fromStr req := by
  have htools : (req.tools.map fun tool => ToolMeaning.mk tool.name (tool.description.getD "") tool.parameters) =
      (req.tools.map fun tool => ⟨tool.name, tool.description.getD "", addPropsFalse tool.parameters⟩) ↔
      ∀ tool ∈ req.tools, addPropsFalse tool.parameters = tool.parameters := by
    simp only [List.map_inj_left, ToolMeaning.mk.injEq, true_and, eq_comm]
  rw [chatMeaning_buildRequestBody, responsesMeaning_responsesRequest h, Meaning.mk.injEq, List.append_cancel_left_eq,
    turns_eq_iff, htools, Option.map_eq_none_iff]
  constructor
  · rintro ⟨-, ⟨hcallers, harguments⟩, hschemas, -, -, hcap⟩
    exact ⟨hcap, hschemas, hcallers, harguments⟩
  · rintro ⟨hcap, hschemas, hcallers, harguments⟩
    exact ⟨rfl, ⟨hcallers, harguments⟩, hschemas, rfl, rfl, hcap⟩

end

/-- A question that a tool answers, with a cap on the output or none. -/
def weatherRequest (maxTokens : Option UInt64) : ChatCompletionRequest where
  model := none
  systemPrompt := some "Be brief."
  messages := [⟨.user, "How is the weather?", [], none⟩,
    ⟨.assistant, "", [⟨some "call_1", "get_weather", "\x7b\x7d"⟩], none⟩, ⟨.tool, "Sunny", [], some "call_1"⟩]
  tools := [⟨"get_weather", none, .obj [("type", .str "object"), ("additionalProperties", .bool false)]⟩]
  toolChoice := some .auto
  temperature := none
  maxTokens := maxTokens

/-- The parser, on the one text that it is given here. -/
def emptyObject (text : String) : Option Json := if text = "\x7b\x7d" then some (.obj []) else none

/-- Without a cap the two bodies ask for the same. -/
theorem weather_agrees : ∃ request,
    responsesRequest emptyObject (fun _ => "") "qwen" (weatherRequest none) = .ok request ∧
    chatMeaning emptyObject (buildRequestBody (fun _ => .null) "qwen" (weatherRequest none)) =
      responsesMeaning (fun _ => .null) request := by
  have hbuilt : ∃ request, responsesRequest emptyObject (fun _ => "") "qwen" (weatherRequest none) = .ok request :=
    ⟨_, rfl⟩
  obtain ⟨request, hrequest⟩ := hbuilt
  refine ⟨request, hrequest, (same_request_iff hrequest).2 ⟨rfl, ?_, ?_, ?_⟩⟩
  · exact List.forall_mem_singleton.2 rfl
  · simp [weatherRequest]
  · simp [weatherRequest, emptyObject]

/-- With one the Responses body has none. -/
theorem weather_cap_dropped : ∃ request,
    responsesRequest emptyObject (fun _ => "") "qwen" (weatherRequest (some 256)) = .ok request ∧
    (chatMeaning emptyObject (buildRequestBody (fun _ => .null) "qwen" (weatherRequest (some 256)))).maxTokens =
      some (.num 256) ∧
    (responsesMeaning (fun _ => .null) request).maxTokens = none ∧
    chatMeaning emptyObject (buildRequestBody (fun _ => .null) "qwen" (weatherRequest (some 256))) ≠
      responsesMeaning (fun _ => .null) request := by
  refine ⟨_, rfl, rfl, rfl, fun h => ?_⟩
  cases congrArg Meaning.maxTokens h

end Fusions.Ai.Llm
