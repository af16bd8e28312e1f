import Fusions.Ai.OpenAiCompatible.ResponsesApi
import Fusions.Ai.OpenAiCompatible.Streaming

/-! Responses streaming: the server-sent events of a response, and how the stream ends. -/
namespace Fusions.Ai.Responses
open Fusions.Library

structure InputTokensDetails where
  cachedTokens : Nat
  deriving DecidableEq, Repr

structure OutputTokensDetails where
  reasoningTokens : Nat
  deriving DecidableEq, Repr

structure ResponsesUsage where
  inputTokens : Nat
  inputTokensDetails : Option InputTokensDetails
  outputTokens : Nat
  outputTokensDetails : OutputTokensDetails
  totalTokens : Nat
  deriving DecidableEq, Repr

def ResponsesUsage.new : ResponsesUsage := ⟨0, some ⟨0⟩, 0, ⟨0⟩, 0⟩

/-- An output item; the content of a message is not looked at. -/
inductive Output where
  | message
  | functionCall (call : OutputFunctionCall)
  | reasoning (id : String) (summary : List String)

inductive ResponseChunkKind where
  | responseCreated | responseInProgress | responseCompleted | responseFailed | responseIncomplete
  deriving DecidableEq, Repr

/-- A `ResponseChunk`, with the one field of its response that is read. -/
structure ResponseChunk where
  kind : ResponseChunkKind
  usage : Option ResponsesUsage

/-- The item chunks, each with what is read of it. -/
inductive ItemChunkKind where
  | outputItemAdded
  | outputItemDone (item : Output)
  | contentPartAdded
  | contentPartDone
  | outputTextDelta (delta : String)
  | outputTextDone
  | refusalDelta (delta : String)
  | refusalDone
  | functionCallArgsDelta (itemId : String) (delta : String)
  | functionCallArgsDone
  | reasoningSummaryPartAdded
  | reasoningSummaryPartDone
  | reasoningSummaryTextAdded
  | reasoningSummaryTextDone

inductive StreamingCompletionChunk where
  | response (chunk : ResponseChunk)
  | delta (data : ItemChunkKind)

inductive StreamingChoice where
  | text (content : String)
  | toolCall (id : String) (callId : Option String) (name : String) (arguments : Hetuflow.Json)
  | toolCallDelta (id : String) (content : ToolCallDeltaContent)
  | reasoning (id : Option String) (content : String)
  | final (usage : ResponsesUsage)

/-- An item of the stream; an error is `OpenAiCompatError::Stream`. -/
abbrev Yielded := Except String StreamingChoice

/-- The variables of the loop; its `combined_text` is never read. -/
structure StreamState where
  finalUsage : ResponsesUsage
  terminated : Bool
  toolCalls : List StreamingChoice

def toolCallOf (call : OutputFunctionCall) : StreamingChoice :=
  .toolCall call.id (some call.callId) call.name call.arguments

def onDelta (state : StreamState) : ItemChunkKind → StreamState × List Yielded
  | .outputItemDone (.functionCall call) => ({ state with toolCalls := state.toolCalls ++ [toolCallOf call] }, [])
  | .outputItemDone (.reasoning id summary) =>
    (state, [.ok (.reasoning (some id) (String.intercalate "\n" summary))])
  | .outputTextDelta delta => (state, [.ok (.text delta)])
  | .refusalDelta delta => (state, [.ok (.text delta)])
  | .functionCallArgsDelta itemId delta => (state, [.ok (.toolCallDelta itemId (.delta delta))])
  | _ => (state, [])

def onResponse (state : StreamState) (chunk : ResponseChunk) : StreamState :=
  match chunk.kind with
  | .responseCompleted =>
    { state with finalUsage := chunk.usage.getD state.finalUsage, terminated := true }
  | .responseFailed | .responseIncomplete => { state with terminated := true }
  | .responseCreated | .responseInProgress => state

section
-- `serde_json::from_str` for chunks
variable (fromStr : String → Option StreamingCompletionChunk)

def onMessage (state : StreamState) (data : String) : StreamState × List Yielded :=
  if trim data == "" then (state, [])
  else
    match fromStr data with
    | none => (state, [])
    | some (.delta chunk) => onDelta state chunk
    | some (.response chunk) => (onResponse state chunk, [])

def readEvents : StreamState → List SseItem → StreamState × List Yielded
  | state, [] => (state, [])
  | state, item :: rest =>
    if state.terminated then (state, [])
    else
      match item with
      | .error text => (state, [.error text])
      | .message data =>
        let (state, out) := onMessage fromStr state data
        let (state, out') := readEvents state rest
        (state, out ++ out')

/-- The stream of a successful response. -/
def streamResponses (items : List SseItem) : List Yielded :=
  let (state, out) := readEvents fromStr ⟨.new, false, []⟩ items
  out ++ state.toolCalls.map .ok ++ [.ok (.final state.finalUsage)]

/-! What the events say. -/

/-- How the events end: with a terminal event, with a transport error, or just so. -/
inductive Ending where
  | completed (usage : Option ResponsesUsage)
  | incomplete (usage : Option ResponsesUsage)
  | failed
  | error (text : String)
  | silent
  deriving DecidableEq

def ResponseChunk.ending (chunk : ResponseChunk) : Option Ending :=
  match chunk.kind with
  | .responseCompleted => some (.completed chunk.usage)
  | .responseIncomplete => some (.incomplete chunk.usage)
  | .responseFailed => some .failed
  | .responseCreated | .responseInProgress => none

def chunkOf : SseItem → Option StreamingCompletionChunk
  | .message data => if trim data == "" then none else fromStr data
  | .error _ => none

def endingOf : SseItem → Option Ending
  | .error text => some (.error text)
  | .message data =>
    match chunkOf fromStr (.message data) with
    | some (.response chunk) => chunk.ending
    | _ => none

def deltaOf (item : SseItem) : Option ItemChunkKind :=
  match chunkOf fromStr item with
  | some (.delta data) => some data
  | _ => none

def ending (items : List SseItem) : Ending := (items.findSome? (endingOf fromStr)).getD .silent

/-- The item chunks that arrive before the end. -/
def received (items : List SseItem) : List ItemChunkKind :=
  (items.takeWhile fun item => (endingOf fromStr item).isNone).filterMap (deltaOf fromStr)

end

/-- The text of an output-text or a refusal delta. -/
def ItemChunkKind.deltaText : ItemChunkKind → Option String
  | .outputTextDelta delta | .refusalDelta delta => some delta
  | _ => none

/-- The tool call of a completed function-call item. -/
def ItemChunkKind.completedCall : ItemChunkKind → Option StreamingChoice
  | .outputItemDone (.functionCall call) => some (toolCallOf call)
  | _ => none

def textOf : Yielded → Option String
  | .ok (.text content) => some content
  | _ => none

def callOf : Yielded → Option StreamingChoice
  | .ok (.toolCall id callId name arguments) => some (.toolCall id callId name arguments)
  | _ => none

/-- Neither an error nor the final item. -/
def Yielded.inner : Yielded → Bool
  | .error _ | .ok (.final _) => false
  | .ok _ => true

/-- The last item of a stream and nothing like it before. -/
def EndsWith (last : Yielded) (out : List Yielded) : Prop :=
  ∃ before, out = before ++ [last] ∧ ∀ y ∈ before, y.inner = true

/-- The last item tells how the events ended: the final one, with the event's usage, for a response that is
completed or incomplete, an error for every other end. -/
def Ending.Told : Ending → List Yielded → Prop
  | .completed usage, out | .incomplete usage, out => EndsWith (.ok (.final (usage.getD .new))) out
  | .failed, out | .error _, out | .silent, out => ∃ text, EndsWith (.error text) out

/-- All the text and all the calls that arrive before the end, in order, and the end told. -/
structure EndsFaithfully (fromStr : String → Option StreamingCompletionChunk) (items : List SseItem)
    (out : List Yielded) : Prop where
  text : out.filterMap textOf = (received fromStr items).filterMap ItemChunkKind.deltaText
  calls : out.filterMap callOf = (received fromStr items).filterMap ItemChunkKind.completedCall
  told : (ending fromStr items).Told out

/-- The code's one usage is the event's: completed, or cut short with no usage or with zeros. -/
def Ending.Kept : Ending → Prop
  | .completed _ => True
  | .incomplete usage => usage.getD .new = .new
  | .failed | .error _ | .silent => False

/-! What the code yields. -/

/-- What is yielded when an item chunk arrives. -/
def ItemChunkKind.shown : ItemChunkKind → Option StreamingChoice
  | .outputItemDone (.reasoning id summary) => some (.reasoning (some id) (String.intercalate "\n" summary))
  | .outputTextDelta delta | .refusalDelta delta => some (.text delta)
  | .functionCallArgsDelta itemId delta => some (.toolCallDelta itemId (.delta delta))
  | _ => none

/-- The usage after the end. -/
def Ending.usage (default : ResponsesUsage) : Ending → ResponsesUsage
  | .completed usage => usage.getD default
  | _ => default

/-- The error yielded at the end. -/
def Ending.errors : Ending → List Yielded
  | .error text => [.error text]
  | _ => []

theorem onDelta_eq (state : StreamState) (data : ItemChunkKind) :
    onDelta state data = ({ state with toolCalls := state.toolCalls ++ data.completedCall.toList },
      data.shown.toList.map .ok) := by
  cases data with
  | outputItemDone item => cases item <;> simp [onDelta, ItemChunkKind.completedCall, ItemChunkKind.shown]
  | _ => simp [onDelta, ItemChunkKind.completedCall, ItemChunkKind.shown]

theorem onResponse_eq (state : StreamState) (chunk : ResponseChunk) :
    onResponse state chunk = { state with
      finalUsage := (chunk.ending.getD .silent).usage state.finalUsage
      terminated := state.terminated || chunk.ending.isSome } := by
  unfold onResponse ResponseChunk.ending
  cases chunk.kind <;> simp [Ending.usage]

section
variable (fromStr : String → Option StreamingCompletionChunk)

theorem onMessage_eq (state : StreamState) (data : String) :
    onMessage fromStr state data =
      ({ finalUsage := ((endingOf fromStr (.message data)).getD .silent).usage state.finalUsage
         terminated := state.terminated || (endingOf fromStr (.message data)).isSome
         toolCalls := state.toolCalls ++ ((deltaOf fromStr (.message data)).bind ItemChunkKind.completedCall).toList },
        ((deltaOf fromStr (.message data)).bind ItemChunkKind.shown).toList.map .ok) := by
  unfold onMessage endingOf deltaOf chunkOf
  by_cases hblank : trim data == ""
  · simp [hblank, Ending.usage]
  · cases hc : fromStr data with
    | none => simp [hblank, hc, Ending.usage]
    | some chunk =>
      cases chunk with
      | response chunk => simp [hblank, hc, onResponse_eq]
      | delta data => simp [hblank, hc, onDelta_eq, Ending.usage]

theorem readEvents_terminated {state : StreamState} (h : state.terminated = true) (items : List SseItem) :
    readEvents fromStr state items = (state, []) := by
  cases items <;> simp [readEvents, h]

theorem ending_cons (item : SseItem) (rest : List SseItem) :
    ending fromStr (item :: rest) = (endingOf fromStr item).getD (ending fromStr rest) := by
  cases h : endingOf fromStr item <;> simp [ending, h]

theorem received_cons_of_some {item : SseItem} {e : Ending} (h : endingOf fromStr item = some e)
    (rest : List SseItem) : received fromStr (item :: rest) = [] := by
  simp [received, h]

theorem received_cons_of_none {item : SseItem} (h : endingOf fromStr item = none) (rest : List SseItem) :
    received fromStr (item :: rest) = (deltaOf fromStr item).toList ++ received fromStr rest := by
  cases hd : deltaOf fromStr item <;> simp [received, h, hd]

/-- A chunk that ends the stream is no item chunk. -/
theorem deltaOf_of_ending {data : String} {e : Ending} (h : endingOf fromStr (.message data) = some e) :
    deltaOf fromStr (.message data) = none ∧ e.errors = [] := by
  unfold endingOf at h
  unfold deltaOf
  cases hc : chunkOf fromStr (.message data) with
  | none => simp [hc] at h
  | some chunk =>
    cases chunk with
    | delta data => simp [hc] at h
    | response chunk =>
      simp only [hc, ResponseChunk.ending] at h
      refine ⟨rfl, ?_⟩
      cases hk : chunk.kind <;> rw [hk] at h <;> cases h <;> rfl

theorem filterMap_toList {α β : Type} (f : α → Option β) (o : Option α) : o.toList.filterMap f = (o.bind f).toList := by
  cases o with
  | none => rfl
  | some a => cases h : f a <;> simp [h]

/-- The run of the loop: what is shown and kept of the chunks before the end, and what the end adds. -/
theorem readEvents_eq (items : List SseItem) : ∀ state : StreamState, state.terminated = false →
    (readEvents fromStr state items).1.finalUsage = (ending fromStr items).usage state.finalUsage ∧
    (readEvents fromStr state items).1.toolCalls =
      state.toolCalls ++ (received fromStr items).filterMap ItemChunkKind.completedCall ∧
    (readEvents fromStr state items).2 =
      ((received fromStr items).filterMap ItemChunkKind.shown).map .ok ++ (ending fromStr items).errors := by
  induction items with
  | nil => intro state _; simp [readEvents, ending, received, Ending.usage, Ending.errors]
  | cons item rest ih =>
    intro state hstate
    rw [ending_cons]
    cases item with
    | error text =>
      have hend : endingOf fromStr (.error text) = some (.error text) := rfl
      rw [received_cons_of_some fromStr hend, hend]
      simp [readEvents, hstate, Ending.usage, Ending.errors]
    | message data =>
      simp only [readEvents, hstate, Bool.false_eq_true, if_false, onMessage_eq, Bool.false_or]
      cases hend : endingOf fromStr (.message data) with
      | some e =>
        obtain ⟨hdelta, herrors⟩ := deltaOf_of_ending fromStr hend
        rw [received_cons_of_some fromStr hend, hdelta, readEvents_terminated fromStr rfl]
        simp [herrors]
      | none =>
        rw [received_cons_of_none fromStr hend]
        simp only [Option.getD_none, Option.isSome_none, Ending.usage]
        let next : StreamState := ⟨state.finalUsage, false,
          state.toolCalls ++ ((deltaOf fromStr (.message data)).bind ItemChunkKind.completedCall).toList⟩
        obtain ⟨husage, hcalls, hout⟩ := ih next rfl
        refine ⟨husage, ?_, ?_⟩
        · rw [hcalls, List.filterMap_append, filterMap_toList, List.append_assoc]
        · rw [hout, List.filterMap_append, filterMap_toList, List.map_append, List.append_assoc]

/-- The stream is what is shown before the end, its error, the calls and the final item. -/
theorem streamResponses_eq (items : List SseItem) :
    streamResponses fromStr items =
      ((received fromStr items).filterMap ItemChunkKind.shown).map .ok ++ (ending fromStr items).errors ++
        ((received fromStr items).filterMap ItemChunkKind.completedCall).map .ok ++
        [.ok (.final ((ending fromStr items).usage .new))] := by
  obtain ⟨husage, hcalls, hout⟩ := readEvents_eq fromStr items ⟨.new, false, []⟩ rfl
  simp only [streamResponses]
  rw [husage, hcalls, hout, List.nil_append]

end

/-! The items by their kind. -/

theorem shown_text (data : ItemChunkKind) : data.shown.bind (textOf <| .ok ·) = data.deltaText := by
  cases data with
  | outputItemDone item => cases item <;> rfl
  | _ => rfl

theorem shown_call (data : ItemChunkKind) : data.shown.bind (callOf <| .ok ·) = none := by
  cases data with
  | outputItemDone item => cases item <;> rfl
  | _ => rfl

theorem completedCall_text (data : ItemChunkKind) : data.completedCall.bind (textOf <| .ok ·) = none := by
  cases data with
  | outputItemDone item => cases item <;> rfl
  | _ => rfl

theorem completedCall_call (data : ItemChunkKind) :
    data.completedCall.bind (callOf <| .ok ·) = data.completedCall := by
  cases data with
  | outputItemDone item => cases item <;> rfl
  | _ => rfl

theorem inner_of_shown {data : ItemChunkKind} {choice : StreamingChoice} (h : data.shown = some choice) :
    Yielded.inner (.ok choice) = true := by
  revert h
  cases data with
  | outputItemDone item => cases item <;> rintro ⟨⟩; rfl
  | _ => rintro ⟨⟩ <;> rfl

theorem inner_of_completedCall {data : ItemChunkKind} {choice : StreamingChoice}
    (h : data.completedCall = some choice) : Yielded.inner (.ok choice) = true := by
  revert h
  cases data with
  | outputItemDone item => cases item <;> rintro ⟨⟩; rfl
  | _ => rintro ⟨⟩

theorem Ending.errors_text (e : Ending) : e.errors.filterMap textOf = [] := by
  cases e <;> rfl

theorem Ending.errors_call (e : Ending) : e.errors.filterMap callOf = [] := by
  cases e <;> rfl

theorem EndsWith.last_eq {last last' : Yielded} {front : List Yielded} (h : EndsWith last (front ++ [last'])) :
    last' = last ∧ ∀ y ∈ front, y.inner = true := by
  obtain ⟨before, heq, hbefore⟩ := h
  obtain ⟨rfl, hlast⟩ := List.append_inj' heq rfl
  exact ⟨List.singleton_inj.mp hlast, hbefore⟩

section
variable (fromStr : String → Option StreamingCompletionChunk)

theorem streamResponses_text (items : List SseItem) :
    (streamResponses fromStr items).filterMap textOf =
      (received fromStr items).filterMap ItemChunkKind.deltaText := by
  rw [streamResponses_eq]
  simp only [List.filterMap_append, List.filterMap_map, List.filterMap_filterMap, Ending.errors_text]
  have hshown : (fun data => (ItemChunkKind.shown data).bind (textOf ∘ .ok)) = ItemChunkKind.deltaText := by
    funext data
    exact shown_text data
  have hcalls : (fun data => (ItemChunkKind.completedCall data).bind (textOf ∘ .ok)) = fun _ => none := by
    funext data
    exact completedCall_text data
  rw [hshown, hcalls]
  simp [textOf]

theorem streamResponses_calls (items : List SseItem) :
    (streamResponses fromStr items).filterMap callOf =
      (received fromStr items).filterMap ItemChunkKind.completedCall := by
  rw [streamResponses_eq]
  simp only [List.filterMap_append, List.filterMap_map, List.filterMap_filterMap, Ending.errors_call]
  have hshown : (fun data => (ItemChunkKind.shown data).bind (callOf ∘ .ok)) = fun _ => none := by
    funext data
    exact shown_call data
  have hcalls : (fun data => (ItemChunkKind.completedCall data).bind (callOf ∘ .ok)) =
      ItemChunkKind.completedCall := by
    funext data
    exact completedCall_call data
  rw [hshown, hcalls]
  simp [callOf]

/-- Whatever the events, the last item is the final one; an error is yielded for a transport error alone. -/
theorem streamResponses_final (items : List SseItem) :
    ∃ front, streamResponses fromStr items =
        front ++ [.ok (.final ((ending fromStr items).usage .new))] ∧
      ((∀ y ∈ front, y.inner = true) ↔ (ending fromStr items).errors = []) := by
  refine ⟨_, streamResponses_eq fromStr items, ?_, ?_⟩
  · intro hinner
    apply List.eq_nil_iff_forall_not_mem.mpr
    intro y hy
    have hy' := hinner y (by simp [hy])
    cases he : ending fromStr items <;> simp [he, Ending.errors] at hy
    rw [hy] at hy'
    cases hy'
  · intro herrors y hy
    simp only [herrors, List.append_nil, List.mem_append, List.mem_map, List.mem_filterMap] at hy
    obtain ⟨choice, ⟨data, _, hdata⟩, rfl⟩ | ⟨choice, ⟨data, _, hdata⟩, rfl⟩ := hy
    · exact inner_of_shown hdata
    · exact inner_of_completedCall hdata

theorem told_iff (items : List SseItem) :
    (ending fromStr items).Told (streamResponses fromStr items) ↔ (ending fromStr items).Kept := by
  obtain ⟨front, heq, hfront⟩ := streamResponses_final fromStr items
  rw [heq]
  cases he : ending fromStr items with
  | completed usage =>
    simp only [Ending.Told, Ending.Kept, iff_true]
    exact ⟨front, rfl, hfront.mpr (by rw [he]; rfl)⟩
  | incomplete usage =>
    simp only [Ending.Told, Ending.Kept, Ending.usage]
    constructor
    · intro h
      have hlast := h.last_eq.1
      injection hlast with hlast
      injection hlast with hlast
      exact hlast.symm
    · intro h
      rw [h]
      exact ⟨front, rfl, hfront.mpr (by rw [he]; rfl)⟩
  | failed | error text | silent =>
    simp only [Ending.Told, Ending.Kept, iff_false, not_exists]
    intro text h
    cases h.last_eq.1

/-- The stream ends faithfully exactly for a completed response, and for one cut short whose usage is zero. -/
theorem endsFaithfully_iff (items : List SseItem) :
    EndsFaithfully fromStr items (streamResponses fromStr items) ↔ (ending fromStr items).Kept := by
  rw [← told_iff]
  constructor
  · exact EndsFaithfully.told
  · intro h
    exact ⟨streamResponses_text fromStr items, streamResponses_calls fromStr items, h⟩

end

/-- A connection that is closed before any event looks like a response without tokens. -/
theorem closed_final : ¬ EndsFaithfully (fun _ => none) [] (streamResponses (fun _ => none) []) := by
  rintro ⟨_, _, text, before, heq, _⟩
  have hlast : [] ++ [Except.ok (.final .new)] = before ++ [.error text] := heq
  cases (List.append_inj' hlast rfl).2

end Fusions.Ai.Responses
