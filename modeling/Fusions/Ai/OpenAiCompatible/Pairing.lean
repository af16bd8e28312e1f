import Mathlib.Data.List.Nodup
import Mathlib.Data.List.ProdSigma
import Fusions.Ai.OpenAiCompatible.Completion
import Fusions.Ai.OpenAiCompatible.ResponsesApi

/-! Tool calls and the results that answer them, on the two wires: the keys that pair them. -/
namespace Fusions.Ai
open Fusions.Hetuflow Fusions.Library

/-- A tool call of a history, or a result. -/
inductive Link where
  | call (call : Core.ToolCall)
  | answer (result : Core.ToolResult)

/-- A key on a wire, of a call or of a result. -/
inductive Key where
  | call (key : String)
  | answer (key : String)
  deriving DecidableEq

def Link.asCall : Link → Option Core.ToolCall
  | .call toolCall => some toolCall
  | .answer _ => none

def Key.asCall : Key → Option String
  | .call key => some key
  | .answer _ => none

def Core.AssistantContent.asToolCall : Core.AssistantContent → Option Core.ToolCall
  | .toolCall call => some call
  | _ => none

/-- The calls and the results of a message, in their order. -/
def Core.Message.links : Core.Message → List Link
  | .system _ => []
  | .user content => (content.toList.filterMap Completion.asToolResult).map .answer
  | .assistant _ content => (content.toList.filterMap Core.AssistantContent.asToolCall).map .call

/-- The keys of a message of the Chat Completions wire. -/
def Completion.Message.keys : Completion.Message → List Key
  | .assistant _ _ _ _ toolCalls => toolCalls.map fun call => .call call.id
  | .toolResult toolCallId _ => [.answer toolCallId]
  | .system .. | .user .. => []

/-- The keys of an item of the Responses wire. -/
def Responses.InputItem.keys (item : Responses.InputItem) : List Key :=
  match item.input with
  | .functionCall call => [.call call.callId]
  | .functionCallOutput result => [.answer result.callId]
  | .message _ | .reasoning _ => []

/-- The result refers to the call. -/
def Answers (result : Core.ToolResult) (call : Core.ToolCall) : Prop :=
  result.id = call.id ∧ result.callId = call.callId

/-- Each result refers to an earlier call, and the ids of the calls are distinct. -/
structure WellReferenced (links : List Link) : Prop where
  answered : ∀ before result after, links = before ++ .answer result :: after →
    ∃ call, .call call ∈ before ∧ Answers result call
  distinct : ((links.filterMap Link.asCall).map (·.id)).Nodup

inductive SameKind : Link → Key → Prop where
  | call (call : Core.ToolCall) (key : String) : SameKind (.call call) (.call key)
  | answer (result : Core.ToolResult) (key : String) : SameKind (.answer result) (.answer key)

/-- The keys on a wire pair the links they stand for: a result has the key of the call that it answers and of no other
call, and no two calls have the same key. -/
structure Paired (links : List Link) (keys : List Key) : Prop where
  aligned : List.Forall₂ SameKind links keys
  answers : ∀ result key call key', (.answer result, .answer key) ∈ links.zip keys →
    (.call call, .call key') ∈ links.zip keys → (key = key' ↔ Answers result call)
  distinct : (keys.filterMap Key.asCall).Nodup

/-- The key of a link, for a way to choose the keys of calls and of results. -/
def keyOf (callKey : Core.ToolCall → String) (answerKey : Core.ToolResult → String) : Link → Key
  | .call call => .call (callKey call)
  | .answer result => .answer (answerKey result)

section
variable {callKey : Core.ToolCall → String} {answerKey : Core.ToolResult → String} {links : List Link}

theorem mem_calls_iff {call : Core.ToolCall} : call ∈ links.filterMap Link.asCall ↔ .call call ∈ links := by
  constructor
  · intro h
    obtain ⟨link, hlink, heq⟩ := List.mem_filterMap.1 h
    cases link with
    | call other =>
      obtain rfl := Option.some.inj heq
      exact hlink
    | answer => cases heq
  · exact fun h => List.mem_filterMap.2 ⟨_, h, rfl⟩

theorem callKeys_map (links : List Link) : (links.map (keyOf callKey answerKey)).filterMap Key.asCall =
    (links.filterMap Link.asCall).map callKey := by
  induction links with
  | nil => rfl
  | cons link links ih =>
    cases link with
    | call toolCall => exact congrArg (callKey toolCall :: ·) ih
    | answer => exact ih

/-- A choice of keys pairs the links exactly if the two keys agree on each call and its results, and the calls' keys are
distinct. -/
theorem paired_map_iff
    (hanswered : ∀ result, .answer result ∈ links → ∃ call, .call call ∈ links ∧ Answers result call) :
    Paired links (links.map (keyOf callKey answerKey)) ↔
      (∀ result call, .answer result ∈ links → .call call ∈ links → Answers result call →
        answerKey result = callKey call) ∧
      ((links.filterMap Link.asCall).map callKey).Nodup := by
  have hzip : links.zip (links.map (keyOf callKey answerKey)) =
      links.map fun link => (link, keyOf callKey answerKey link) := List.map_prod_left_eq_zip.symm
  have hmem {link : Link} (h : link ∈ links) :
      (link, keyOf callKey answerKey link) ∈ links.zip (links.map (keyOf callKey answerKey)) := by
    rw [hzip]
    exact List.mem_map_of_mem h
  constructor
  · rintro ⟨-, hpairs, hdistinct⟩
    rw [callKeys_map] at hdistinct
    exact ⟨fun result call hresult hcall => (hpairs _ _ _ _ (hmem hresult) (hmem hcall)).2, hdistinct⟩
  · rintro ⟨hagree, hdistinct⟩
    refine ⟨?_, fun result key call key' hresult hcall => ?_, by rwa [callKeys_map]⟩
    · rw [List.forall₂_map_right_iff, List.forall₂_same]
      intro link _
      cases link with
      | call call => exact .call call _
      | answer result => exact .answer result _
    · rw [hzip] at hresult hcall
      obtain ⟨_, hin, heq⟩ := List.mem_map.1 hresult
      obtain ⟨rfl, hkey⟩ := Prod.mk.inj heq
      obtain ⟨_, hin', heq⟩ := List.mem_map.1 hcall
      obtain ⟨rfl, hkey'⟩ := Prod.mk.inj heq
      obtain rfl := Key.answer.inj hkey
      obtain rfl := Key.call.inj hkey'
      refine ⟨fun hsame => ?_, hagree result call hin hin'⟩
      obtain ⟨answered, hanswered, hanswers⟩ := hanswered result hin
      have hsame' : callKey answered = callKey call := (hagree result answered hin hanswered hanswers).symm.trans hsame
      obtain rfl := List.inj_on_of_nodup_map hdistinct (mem_calls_iff.2 hanswered) (mem_calls_iff.2 hin') hsame'
      exact hanswers

end

/-- The links of a history. -/
def links (history : List Core.Message) : List Link := history.flatMap Core.Message.links

/-- A link as often as the Responses wire has it: a result once for each of its texts. -/
def Link.copies : Link → List Link
  | .call toolCall => [.call toolCall]
  | .answer result => List.replicate result.content.toList.length (.answer result)

namespace Completion

/-- The keys that this wire chooses. -/
def key : Link → Key := keyOf (·.id) fun result => result.callId.getD result.id

theorem splitContent_tools {content : List Core.AssistantContent} {texts : List String} {tools : List Core.ToolCall}
    (h : splitContent content = .ok (texts, tools)) : tools = content.filterMap Core.AssistantContent.asToolCall := by
  induction content generalizing texts tools with
  | nil => cases h; rfl
  | cons part content ih =>
    cases part with
    | text =>
      obtain ⟨⟨texts', tools'⟩, hrest, h⟩ := bind_eq_ok h
      cases h
      exact ih hrest
    | toolCall toolCall =>
      obtain ⟨⟨texts', tools'⟩, hrest, h⟩ := bind_eq_ok h
      cases h
      exact congrArg (toolCall :: ·) (ih hrest)
    | reasoning | image => cases h

theorem keys_of_convertToolResult {result : Core.ToolResult} {message : Message}
    (h : convertToolResult result = .ok message) : message.keys = [key (.answer result)] := by
  obtain ⟨items, -, h⟩ := bind_eq_ok h
  cases hmany : Core.OneOrMany.many items with
  | none => simp [hmany] at h
  | some content =>
    simp only [hmany] at h
    cases h
    rfl

theorem keys_of_tryFromMessage {message : Core.Message} {messages : List Message}
    (h : tryFromMessage message = .ok messages) : messages.flatMap Message.keys = message.links.map key := by
  cases message with
  | system content => cases h; rfl
  | assistant id content =>
    obtain ⟨⟨texts, tools⟩, hsplit, h⟩ := bind_eq_ok h
    cases h
    rw [Core.Message.links, ← splitContent_tools hsplit]
    simp [Message.keys, convertToolCall, key, keyOf]
  | user content =>
    rw [Core.Message.links, List.map_map]
    by_cases hresults : content.toList.filterMap asToolResult = []
    · simp only [tryFromMessage, hresults, ne_eq, not_true_eq_false, if_false] at h
      obtain ⟨items, -, h⟩ := bind_eq_ok h
      cases hmany : Core.OneOrMany.many items with
      | none => simp [hmany] at h
      | some content =>
        simp only [hmany] at h
        cases h
        rw [hresults]
        rfl
    · simp only [tryFromMessage, hresults, ne_eq, not_false_eq_true, if_true] at h
      have hkeys : messages.flatMap Message.keys =
          (content.toList.filterMap asToolResult).flatMap fun result => [key (.answer result)] :=
        flatMap_encodeEach (fun result _ message hmessage => keys_of_convertToolResult hmessage) h
      rw [hkeys, ← List.map_eq_flatMap]
      rfl

theorem keys_of_fromHistory {history : List Core.Message} {messages : List Message}
    (h : fromHistory history = .ok messages) : messages.flatMap Message.keys = (links history).map key := by
  rw [links, List.map_flatMap]
  exact flatMap_encodeAll (fun message _ messages hmessages => keys_of_tryFromMessage hmessages) h

end Completion

namespace Responses

/-- The keys that this wire chooses: a call without a call id has an empty one. -/
def key : Link → Key := keyOf (fun call => call.callId.getD "") fun result => result.callId.getD result.id

theorem keys_of_convertToolResult {result : Core.ToolResult} {items : List InputItem}
    (h : convertToolResult result = .ok items) :
    items.flatMap InputItem.keys = (Link.answer result).copies.map key := by
  have hkeys : items.flatMap InputItem.keys = result.content.toList.flatMap fun _ => [key (.answer result)] := by
    refine flatMap_encodeEach (fun content _ item hitem => ?_) h
    cases content with
    | text text =>
      obtain rfl := Except.ok.inj hitem
      rfl
    | image => cases hitem
  rw [hkeys, ← List.map_eq_flatMap, Link.copies, List.map_replicate, List.map_const']

theorem keys_of_convertPdf {data : Core.DocumentSourceKind} {item : InputItem} (h : convertPdf data = .ok item) :
    item.keys = [] := by
  cases data <;> cases h <;> rfl

theorem keys_of_convertImage {image : Core.Image} {item : InputItem} (h : convertImage image = .ok item) :
    item.keys = [] := by
  rw [convertImage] at h
  cases hdata : image.data <;> rw [hdata] at h <;> cases h <;> rfl

section
variable {debug : Core.UserContent → String}

theorem keys_of_convertUserContent {content : Core.UserContent} {items : List InputItem}
    (h : convertUserContent debug content = .ok items) : items.flatMap InputItem.keys =
      ((Completion.asToolResult content).toList.flatMap fun result => (Link.answer result).copies.map key) := by
  cases content with
  | text text => cases h; rfl
  | toolResult result => simpa [Completion.asToolResult] using keys_of_convertToolResult h
  | image image =>
    cases himage : convertImage image with
    | error e => simp [convertUserContent, himage, Except.map] at h
    | ok item =>
      simp only [convertUserContent, himage, Except.map, Except.ok.injEq] at h
      subst h
      simp [Completion.asToolResult, keys_of_convertImage himage]
  | audio audio => cases h
  | document document =>
    rw [convertUserContent] at h
    by_cases hpdf : document.mediaType = some .pdf
    · cases hitem : convertPdf document.data with
      | error e => simp [hpdf, hitem, Except.map] at h
      | ok item =>
        simp only [hpdf, hitem, Except.map, if_true, Except.ok.injEq] at h
        subst h
        simp [Completion.asToolResult, keys_of_convertPdf hitem]
    · rw [if_neg hpdf] at h
      cases hdata : document.data <;> rw [hdata] at h <;> cases h <;> rfl

theorem keys_of_convertAssistantContent {id : Option String} {content : Core.AssistantContent} {item : InputItem}
    (h : convertAssistantContent id content = .ok item) :
    item.keys = content.asToolCall.toList.map fun call => key (.call call) := by
  cases content with
  | text | toolCall =>
    obtain rfl := Except.ok.inj h
    rfl
  | reasoning reasoning =>
    rw [convertAssistantContent] at h
    cases hid : reasoning.id <;> rw [hid] at h <;> cases h
    rfl
  | image => cases h

theorem keys_of_tryFromMessage {message : Core.Message} {items : List InputItem}
    (h : tryFromMessage debug message = .ok items) :
    items.flatMap InputItem.keys = (message.links.flatMap Link.copies).map key := by
  cases message with
  | system content => cases h; rfl
  | user content =>
    rw [flatMap_encodeAll (fun part _ items hitems => keys_of_convertUserContent hitems) h, Core.Message.links,
      List.map_flatMap, List.flatMap_map, List.filterMap_eq_flatMap_toList, List.flatMap_assoc]
  | assistant id content =>
    rw [flatMap_encodeEach (fun part _ item hitem => keys_of_convertAssistantContent hitem) h, Core.Message.links,
      List.map_flatMap, List.flatMap_map, List.filterMap_eq_flatMap_toList, List.flatMap_assoc]
    refine congrArg content.toList.flatMap (funext fun part => ?_)
    cases part.asToolCall <;> rfl

theorem keys_of_fullHistory {history : List Core.Message} {items : List InputItem}
    (h : fullHistory debug history = .ok items) :
    items.flatMap InputItem.keys = ((links history).flatMap Link.copies).map key := by
  rw [links, List.flatMap_assoc, List.map_flatMap]
  exact flatMap_encodeAll (fun message _ items hitems => keys_of_tryFromMessage hitems) h

end
end Responses

theorem mem_copies_iff {links : List Link} {link : Link} : link ∈ links.flatMap Link.copies ↔ link ∈ links := by
  have hlink (other : Link) : link ∈ other.copies ↔ link = other := by
    cases other with
    | call => exact List.mem_singleton
    | answer result => simp [Link.copies, Core.OneOrMany.toList]
  simp only [List.mem_flatMap, hlink, exists_eq_right']

theorem calls_copies (links : List Link) :
    (links.flatMap Link.copies).filterMap Link.asCall = links.filterMap Link.asCall := by
  rw [List.filterMap_flatMap, List.filterMap_eq_flatMap_toList]
  refine congrArg links.flatMap (funext fun link => ?_)
  cases link with
  | call => rfl
  | answer result => simp [Link.copies, Link.asCall]

theorem WellReferenced.exists_call {links : List Link} (h : WellReferenced links) {result : Core.ToolResult}
    (hresult : .answer result ∈ links) : ∃ call, .call call ∈ links ∧ Answers result call := by
  obtain ⟨before, after, rfl⟩ := List.append_of_mem hresult
  obtain ⟨call, hcall, hanswers⟩ := h.answered before result after rfl
  exact ⟨call, List.mem_append_left _ hcall, hanswers⟩

/-- The keys that the wires choose pair the calls of a history with their results, on the Chat Completions wire exactly
if the results have no call id or one that is their id, and on the Responses wire exactly if they have a call id, unless
their id is empty, and the call ids of the calls are distinct, where one without counts as empty. -/
theorem paired_iff {history : List Core.Message} (h : WellReferenced (links history)) :
    (∀ messages, Completion.fromHistory history = .ok messages →
      (Paired (links history) (messages.flatMap Completion.Message.keys) ↔
        ∀ result, .answer result ∈ links history → result.callId = none ∨ result.callId = some result.id)) ∧
    (∀ debug items, Responses.fullHistory debug history = .ok items →
      (Paired ((links history).flatMap Link.copies) (items.flatMap Responses.InputItem.keys) ↔
        (∀ result, .answer result ∈ links history → result.callId = none → result.id = "") ∧
        (((links history).filterMap Link.asCall).map fun call => call.callId.getD "").Nodup)) := by
  constructor
  · intro messages hmessages
    rw [Completion.keys_of_fromHistory hmessages, Completion.key, paired_map_iff fun result => h.exists_call]
    constructor
    · rintro ⟨hagree, -⟩ result hresult
      obtain ⟨call, hcall, hanswers⟩ := h.exists_call hresult
      have hkey := hagree result call hresult hcall hanswers
      cases hid : result.callId with
      | none => exact .inl rfl
      | some callId =>
        rw [hid, Option.getD_some, ← hanswers.1] at hkey
        exact .inr (congrArg some hkey)
    · refine fun hids => ⟨fun result call hresult _ hanswers => ?_, h.distinct⟩
      rcases hids result hresult with hid | hid
      · rw [hid, Option.getD_none, hanswers.1]
      · rw [hid, Option.getD_some, hanswers.1]
  · intro debug items hitems
    have hcalls (result : Core.ToolResult) (hresult : .answer result ∈ (links history).flatMap Link.copies) :
        ∃ call, .call call ∈ (links history).flatMap Link.copies ∧ Answers result call := by
      obtain ⟨call, hcall, hanswers⟩ := h.exists_call (mem_copies_iff.1 hresult)
      exact ⟨call, mem_copies_iff.2 hcall, hanswers⟩
    rw [Responses.keys_of_fullHistory hitems, Responses.key, paired_map_iff hcalls, calls_copies]
    refine and_congr_left fun _ => ?_
    constructor
    · intro hagree result hresult hid
      obtain ⟨call, hcall, hanswers⟩ := h.exists_call hresult
      have hkey := hagree result call (mem_copies_iff.2 hresult) (mem_copies_iff.2 hcall) hanswers
      rwa [← hanswers.2, hid] at hkey
    · intro hids result call hresult _ hanswers
      rw [← hanswers.2]
      cases hid : result.callId with
      | none => exact hids result (mem_copies_iff.1 hresult) hid
      | some callId => rfl

def weatherCall (callId : Option String) : Core.ToolCall := ⟨"call_1", callId, ⟨"get_weather", .obj []⟩, none, none⟩

def weatherResult (callId : Option String) : Core.ToolResult := ⟨"call_1", callId, .one (.text "Sunny")⟩

/-- A question that a tool answers. -/
def weather (callId : Option String) : List Core.Message :=
  [.user (.one (.text "How is the weather?")), .assistant none (.one (.toolCall (weatherCall callId))),
    .user (.one (.toolResult (weatherResult callId)))]

theorem links_weather (callId : Option String) :
    links (weather callId) = [.call (weatherCall callId), .answer (weatherResult callId)] := rfl

theorem weather_wellReferenced (callId : Option String) : WellReferenced (links (weather callId)) := by
  refine ⟨fun before result after heq => ?_, List.nodup_singleton _⟩
  rw [links_weather] at heq
  cases before with
  | nil => cases heq
  | cons first rest =>
    simp only [List.cons_append, List.cons.injEq] at heq
    obtain ⟨rfl, heq⟩ := heq
    cases rest with
    | nil =>
      simp only [List.nil_append, List.cons.injEq, Link.answer.injEq] at heq
      obtain ⟨rfl, -⟩ := heq
      exact ⟨_, List.mem_singleton_self _, rfl, rfl⟩
    | cons second rest => simp at heq

/-- With its id as call id, the call is paired with its result on both wires. -/
theorem weather_paired : ∃ messages items, Completion.fromHistory (weather (some "call_1")) = .ok messages ∧
    Responses.fullHistory (fun _ => "") (weather (some "call_1")) = .ok items ∧
    Paired (links (weather (some "call_1"))) (messages.flatMap Completion.Message.keys) ∧
    Paired ((links (weather (some "call_1"))).flatMap Link.copies) (items.flatMap Responses.InputItem.keys) := by
  have hresult (result : Core.ToolResult) (h : .answer result ∈ links (weather (some "call_1"))) :
      result.callId = some result.id := by
    rw [links_weather] at h
    obtain h | h := List.mem_pair.1 h
    · cases h
    · obtain rfl := Link.answer.inj h
      rfl
  obtain ⟨hchat, hresponses⟩ := paired_iff (weather_wellReferenced (some "call_1"))
  refine ⟨_, _, rfl, rfl, (hchat _ rfl).2 fun result h => .inr (hresult result h),
    (hresponses (fun _ => "") _ rfl).2 ⟨fun result h hnone => ?_, List.nodup_singleton _⟩⟩
  rw [hresult result h] at hnone
  cases hnone

/-- Without a call id, the call has an empty key on the Responses wire and its result has the id. -/
theorem weather_unpaired : ∃ items, WellReferenced (links (weather none)) ∧
    Responses.fullHistory (fun _ => "") (weather none) = .ok items ∧
    items.flatMap Responses.InputItem.keys = [.call "", .answer "call_1"] ∧
    ¬ Paired ((links (weather none)).flatMap Link.copies) (items.flatMap Responses.InputItem.keys) := by
  refine ⟨_, weather_wellReferenced none, rfl, rfl, fun hpaired => ?_⟩
  have hkey := (hpaired.answers (weatherResult none) "call_1" (weatherCall none) "" (.tail _ (.head _)) (.head _)).2
    ⟨rfl, rfl⟩
  exact absurd hkey (by decide)

end Fusions.Ai
