import Mathlib.Data.List.DropRight
import Mathlib.Data.List.Induction
import Fusions.Ai.OpenAiCompatible.Streaming

/-! Which tool calls the Chat Completions stream reassembles: what is yielded for an index, by its fragments and by
the flush, and in which order. -/
namespace Fusions.Ai
open Fusions.Library

section
variable {V : Type} (json : SerdeJson V)

def chunkOf : SseItem → Option StreamingCompletionChunk
  | .message data => if isMark data then none else json.chunk data
  | .error _ => none

/-- The tool call fragments of a stream. -/
def fragments (items : List SseItem) : List StreamingToolCall :=
  (items.filterMap (chunkOf json)).flatMap fun chunk =>
    (chunk.choices.head?.map fun choice => choice.delta.toolCalls).getD []

/-- The content deltas of a stream. -/
def contents (items : List SseItem) : List String :=
  (items.filterMap (chunkOf json)).filterMap fun chunk => chunk.choices.head?.bind fun choice => choice.delta.content

/-- The fragments at an index. -/
def at_ (i : Nat) (fs : List StreamingToolCall) : List StreamingToolCall := fs.filter fun f => f.index == i

/-- The whole argument text of the fragments of a call. -/
def argumentText (fs : List StreamingToolCall) : String := String.join (fs.map fun f => f.function.arguments)

/-- The fragments of one call: the first has the id and the name, no later one a name, and the argument text is
empty or valid. -/
def WellFormedCall : List StreamingToolCall → Prop
  | [] => True
  | f :: later => f.id.isSome = true ∧ f.function.name.getD "" ≠ "" ∧ (∀ g ∈ later, g.function.name.getD "" = "") ∧
      (argumentText (f :: later) = "" ∨ (json.value (argumentText (f :: later))).isSome = true)

/-- No transport error, and at each index the fragments of a call. -/
def WellFormedStream (items : List SseItem) : Prop :=
  (∀ item ∈ items, ∃ data, item = .message data) ∧ ∀ i, WellFormedCall json (at_ i (fragments json items))

/-- The call that the fragments of an index stand for. -/
def expectedCall (fs : List StreamingToolCall) : StreamingChoice V :=
  .toolCall (fs.head?.bind StreamingToolCall.id |>.getD "") none
    (fs.head?.bind (fun f => f.function.name) |>.getD "")
    (if argumentText fs = "" then json.emptyObject else (json.value (argumentText fs)).getD json.emptyObject)

end

section
variable {V : Type}

/-- A yielded tool call with its index. -/
def Yielded.call : Yielded V → Option (Nat × StreamingChoice V)
  | ⟨some i, .ok (.toolCall id callId name arguments)⟩ => some (i, .toolCall id callId name arguments)
  | _ => none

def Yielded.text : Yielded V → Option String
  | ⟨_, .ok (.text content)⟩ => some content
  | _ => none

def Yielded.isFinal : Yielded V → Bool
  | ⟨_, .ok (.final _)⟩ => true
  | _ => false

/-- One call for each index, in ascending order, with the whole text parsed; all the text; and the final event
once, at the end. -/
structure Reassembles (json : SerdeJson V) (items : List SseItem) (out : List (Yielded V)) : Prop where
  calls : ∃ is : List Nat, is.Pairwise (· < ·) ∧ (∀ i, i ∈ is ↔ at_ i (fragments json items) ≠ []) ∧
    out.filterMap Yielded.call = is.map fun i => (i, expectedCall json (at_ i (fragments json items)))
  text : String.join (out.filterMap Yielded.text) = String.join (contents json items)
  final : ∃ before last, out = before ++ [last] ∧ last.isFinal = true ∧ ∀ y ∈ before, y.isFinal = false

/-- A fragment with an empty name and no arguments: the code takes it for the start of a call. -/
def Restarts (f : StreamingToolCall) : Prop := f.function.name.isSome = true ∧ f.function.arguments = ""

instance (f : StreamingToolCall) : Decidable (Restarts f) := by
  unfold Restarts
  infer_instance

/-- The argument text since the last restart. -/
def leftover (later : List StreamingToolCall) : Option String :=
  later.foldl (fun u f => if Restarts f then some "" else u.map (· ++ f.function.arguments)) none

/-- The code keeps the call of these fragments: begun without arguments it is not restarted and gets some; begun
with arguments these are the whole value, and nothing that is one follows a restart. -/
def CallKept (json : SerdeJson V) : List StreamingToolCall → Prop
  | [] => True
  | f :: later =>
    if f.function.arguments = "" then (∀ g ∈ later, ¬ Restarts g) ∧ argumentText (f :: later) ≠ ""
    else json.value f.function.arguments = json.value (argumentText (f :: later)) ∧
      ∀ u ∈ leftover later, json.value u = none

/-- The indices of the calls that begin with a part of their arguments, in the order they begin in. -/
def begunWithArguments (fs : List StreamingToolCall) : List Nat :=
  (fs.filter fun f => f.function.name.getD "" ≠ "" ∧ f.function.arguments ≠ "").map StreamingToolCall.index

/-- The indices of the calls that begin without arguments. -/
def begunWithout (fs : List StreamingToolCall) : List Nat :=
  (fs.filter fun f => f.function.name.getD "" ≠ "" ∧ f.function.arguments = "").map StreamingToolCall.index

/-- The calls begun with arguments begin in ascending order, and at most one, the last, is begun without. -/
def InOrder (fs : List StreamingToolCall) : Prop :=
  (begunWithArguments fs).Pairwise (· < ·) ∧ (∀ i ∈ begunWithout fs, ∀ j ∈ begunWithout fs, i = j) ∧
    ∀ i ∈ begunWithArguments fs, ∀ j ∈ begunWithout fs, i < j

end

/-! What one fragment does. -/
section
variable {V : Type} (json : SerdeJson V)

/-- The call yielded at once, for a fragment with a name and arguments. -/
def completeCall (f : StreamingToolCall) : Option (Nat × StreamingChoice V) :=
  if f.function.name.getD "" ≠ "" ∧ f.function.arguments ≠ "" then
    (json.value f.function.arguments).map fun arguments =>
      (f.index, .toolCall (f.id.getD "") none (f.function.name.getD "") arguments)
  else none

/-- The entry of an index after a fragment at it. -/
def entryStep (entry : Option PartialCall) (f : StreamingToolCall) : Option PartialCall :=
  if Restarts f then some ⟨f.id.getD "", f.function.name.getD "", ""⟩
  else if f.function.name.getD "" = "" then
    entry.map fun call => { call with arguments := call.arguments ++ f.function.arguments }
  else entry

theorem onToolCall_calls (calls : ToolCalls) (f : StreamingToolCall) :
    (onToolCall json calls f).2.filterMap Yielded.call = (completeCall json f).toList := by
  unfold onToolCall completeCall
  obtain ⟨index, id, name, arguments⟩ := f
  cases name with
  | none =>
    by_cases hargs : arguments = ""
    · simp [hargs]
    · cases calls.lookup index <;> simp [hargs, Yielded.call]
  | some name =>
    by_cases hargs : arguments = ""
    · simp [hargs]
    · by_cases hname : name = ""
      · cases calls.lookup index <;> simp [hargs, hname, Yielded.call]
      · cases hvalue : json.value arguments <;> simp [hargs, hname, hvalue, Yielded.call]

theorem onToolCall_others (calls : ToolCalls) (f : StreamingToolCall) :
    (onToolCall json calls f).2.filterMap Yielded.text = [] ∧
      ∀ y ∈ (onToolCall json calls f).2, y.isFinal = false := by
  unfold onToolCall
  dsimp only
  split
  · simp
  · split
    · split <;> simp [Yielded.text, Yielded.isFinal]
    · split
      · simp
      · split <;> simp [Yielded.text, Yielded.isFinal]

theorem onToolCall_lookup (calls : ToolCalls) (f : StreamingToolCall) (i : Nat) :
    (onToolCall json calls f).1.lookup i =
      if f.index = i then entryStep (calls.lookup i) f else calls.lookup i := by
  unfold onToolCall entryStep Restarts
  obtain ⟨index, id, name, arguments⟩ := f
  by_cases hindex : index = i
  · subst hindex
    cases name with
    | none =>
      by_cases hargs : arguments = ""
      · cases hcall : calls.lookup index <;> simp [hargs, hcall]
      · cases hcall : calls.lookup index <;> simp [hargs, hcall]
    | some name =>
      by_cases hargs : arguments = ""
      · simp [hargs]
      · by_cases hname : name = ""
        · cases hcall : calls.lookup index <;> simp [hargs, hname, hcall]
        · cases hvalue : json.value arguments <;> simp [hargs, hname, hvalue]
  · have hne : i ≠ index := fun heq => hindex heq.symm
    simp only [hindex, if_false]
    split
    · exact AList.lookup_insert_ne hne
    · split
      · split
        · exact AList.lookup_insert_ne hne
        · rfl
      · split
        · rfl
        · split <;> rfl

/-! What the loop does with a stream without errors. -/

theorem onToolCalls_calls (calls : ToolCalls) (fs : List StreamingToolCall) :
    (onToolCalls json calls fs).2.filterMap Yielded.call = fs.filterMap (completeCall json) := by
  induction fs generalizing calls with
  | nil => rfl
  | cons f fs ih =>
    simp only [onToolCalls, List.filterMap_append, onToolCall_calls, ih]
    cases hcomplete : completeCall json f <;> simp [hcomplete]

theorem onToolCalls_others (calls : ToolCalls) (fs : List StreamingToolCall) :
    (onToolCalls json calls fs).2.filterMap Yielded.text = [] ∧
      ∀ y ∈ (onToolCalls json calls fs).2, y.isFinal = false := by
  induction fs generalizing calls with
  | nil => exact ⟨rfl, nofun⟩
  | cons f fs ih =>
    obtain ⟨htext, hfinal⟩ := onToolCall_others json calls f
    obtain ⟨htexts, hfinals⟩ := ih (onToolCall json calls f).1
    exact ⟨by simp [onToolCalls, htext, htexts], List.forall_mem_append.2 ⟨hfinal, hfinals⟩⟩

theorem onToolCalls_lookup (calls : ToolCalls) (fs : List StreamingToolCall) (i : Nat) :
    (onToolCalls json calls fs).1.lookup i = (at_ i fs).foldl entryStep (calls.lookup i) := by
  induction fs generalizing calls with
  | nil => rfl
  | cons f fs ih =>
    have hstep := onToolCall_lookup json calls f i
    simp only [onToolCalls, ih, hstep, at_]
    by_cases hindex : f.index = i
    · simp [hindex]
    · simp [hindex]

theorem onToolCalls_append (calls : ToolCalls) (fs gs : List StreamingToolCall) :
    (onToolCalls json calls (fs ++ gs)).1 = (onToolCalls json (onToolCalls json calls fs).1 gs).1 := by
  induction fs generalizing calls with
  | nil => rfl
  | cons f fs ih => exact ih _

/-- One chunk: its fragments in order, then its content. -/
theorem onChunk_spec (state : StreamState) (chunk : StreamingCompletionChunk) :
    let fs := (chunk.choices.head?.map fun choice => choice.delta.toolCalls).getD []
    (onChunk json state chunk).1.toolCalls = (onToolCalls json state.toolCalls fs).1 ∧
      (onChunk json state chunk).2.filterMap Yielded.call = fs.filterMap (completeCall json) ∧
      (onChunk json state chunk).2.filterMap Yielded.text =
        (chunk.choices.head?.bind fun choice => choice.delta.content).toList ∧
      ∀ y ∈ (onChunk json state chunk).2, y.isFinal = false := by
  unfold onChunk
  cases chunk.choices.head? with
  | none => exact ⟨rfl, rfl, rfl, nofun⟩
  | some choice =>
    obtain ⟨htexts, hfinals⟩ := onToolCalls_others json state.toolCalls choice.delta.toolCalls
    refine ⟨rfl, ?_, ?_, ?_⟩
    · cases hcontent : choice.delta.content <;> simp [hcontent, onToolCalls_calls, Yielded.call]
    · cases hcontent : choice.delta.content <;> simp [hcontent, htexts, Yielded.text]
    · refine List.forall_mem_append.2 ⟨hfinals, fun y hy => ?_⟩
      obtain ⟨content, -, rfl⟩ := List.mem_map.1 hy
      rfl

theorem onMessage_eq (state : StreamState) (data : String) :
    onMessage json state data =
      match chunkOf json (.message data) with
      | none => (state, [])
      | some chunk => onChunk json state chunk := by
  unfold onMessage chunkOf
  dsimp only
  split <;> rfl

/-- The loop over messages: the fragments and the contents of all chunks, in order. -/
theorem readEvents_spec (state : StreamState) {items : List SseItem}
    (h : ∀ item ∈ items, ∃ data, item = .message data) :
    (readEvents json state items).1.toolCalls = (onToolCalls json state.toolCalls (fragments json items)).1 ∧
      (readEvents json state items).2.filterMap Yielded.call = (fragments json items).filterMap (completeCall json) ∧
      (readEvents json state items).2.filterMap Yielded.text = contents json items ∧
      ∀ y ∈ (readEvents json state items).2, y.isFinal = false := by
  induction items generalizing state with
  | nil => exact ⟨rfl, rfl, rfl, nofun⟩
  | cons item items ih =>
    obtain ⟨⟨data, rfl⟩, hrest⟩ := List.forall_mem_cons.1 h
    obtain ⟨hstate, hcalls, htexts, hfinals⟩ := ih (onMessage json state data).1 hrest
    have hmessage := onMessage_eq json state data
    cases hchunk : chunkOf json (.message data) with
    | none =>
      simp only [hchunk] at hmessage
      simp only [readEvents, hmessage, fragments, contents, List.filterMap_cons, hchunk] at hstate hcalls htexts hfinals ⊢
      exact ⟨hstate, hcalls, htexts, hfinals⟩
    | some chunk =>
      simp only [hchunk] at hmessage
      obtain ⟨hstate', hcalls', htexts', hfinals'⟩ := onChunk_spec json state chunk
      rw [hmessage] at hstate hcalls htexts hfinals
      have hfragments : fragments json (.message data :: items) =
          ((chunk.choices.head?.map fun choice => choice.delta.toolCalls).getD []) ++ fragments json items := by
        simp [fragments, hchunk]
      have hcontents : contents json (.message data :: items) =
          (chunk.choices.head?.bind fun choice => choice.delta.content).toList ++ contents json items := by
        unfold contents
        rw [List.filterMap_cons, hchunk]
        dsimp only
        rw [List.filterMap_cons]
        cases chunk.choices.head?.bind fun choice => choice.delta.content <;> rfl
      rw [hfragments, hcontents]
      simp only [readEvents, hmessage]
      refine ⟨?_, ?_, ?_, List.forall_mem_append.2 ⟨hfinals', hfinals⟩⟩
      · rw [hstate, hstate', onToolCalls_append]
      · rw [List.filterMap_append, List.filterMap_append, hcalls, hcalls']
      · rw [List.filterMap_append, htexts, htexts']

end

/-! The entry of one call, from its fragments. -/
section
variable {V : Type} {json : SerdeJson V} {f g : StreamingToolCall} {later : List StreamingToolCall}

theorem argumentText_cons (f : StreamingToolCall) (later : List StreamingToolCall) :
    argumentText (f :: later) = f.function.arguments ++ argumentText later := by
  simp [argumentText]

theorem argumentText_concat (later : List StreamingToolCall) (g : StreamingToolCall) :
    argumentText (later ++ [g]) = argumentText later ++ g.function.arguments := by
  simp [argumentText]

theorem leftover_concat (later : List StreamingToolCall) (g : StreamingToolCall) :
    leftover (later ++ [g]) =
      if Restarts g then some "" else (leftover later).map (· ++ g.function.arguments) := by
  simp [leftover]

theorem leftover_eq_none : leftover later = none ↔ ∀ g ∈ later, ¬ Restarts g := by
  induction later using List.reverseRecOn with
  | nil => simp [leftover]
  | append_singleton later g ih =>
    rw [leftover_concat]
    by_cases hrestart : Restarts g
    · simp [hrestart]
    · simp [hrestart, ih, or_imp, forall_and]

/-- Fragments without a name extend the entry, until one restarts it under the empty name. -/
theorem foldl_entryStep (entry : Option PartialCall) (hnames : ∀ g ∈ later, g.function.name.getD "" = "") :
    (leftover later = none → later.foldl entryStep entry =
      entry.map fun call => { call with arguments := call.arguments ++ argumentText later }) ∧
    ∀ u, leftover later = some u → ∃ id, later.foldl entryStep entry = some ⟨id, "", u⟩ := by
  induction later using List.reverseRecOn with
  | nil =>
    refine ⟨fun _ => ?_, nofun⟩
    cases entry <;> simp [argumentText]
  | append_singleton later g ih =>
    obtain ⟨hnames, hname⟩ := List.forall_mem_append.1 hnames
    have hname := hname g (List.mem_singleton_self g)
    obtain ⟨hkept, hrestarted⟩ := ih hnames
    rw [leftover_concat, List.foldl_concat, argumentText_concat]
    by_cases hrestart : Restarts g
    · simp [hrestart, entryStep, hname]
    · have hstep : ∀ e, entryStep e g =
          e.map fun call => { call with arguments := call.arguments ++ g.function.arguments } := by
        intro e
        simp [entryStep, hrestart, hname]
      rw [if_neg hrestart, hstep]
      constructor
      · intro hnone
        rw [hkept (Option.map_eq_none_iff.1 hnone)]
        cases entry <;> simp [String.append_assoc]
      · intro u hu
        obtain ⟨w, hw, rfl⟩ := Option.map_eq_some_iff.1 hu
        obtain ⟨id, hentry⟩ := hrestarted w hw
        exact ⟨id, by rw [hentry]; rfl⟩

/-- The call that the flush yields for an entry. -/
def flushed (json : SerdeJson V) (i : Nat) (call : PartialCall) : Option (Nat × StreamingChoice V) :=
  (json.value call.arguments).map fun arguments => (i, .toolCall call.id none call.name arguments)

/-- All that is yielded for the fragments of one index: at once, and by the flush. -/
def callsOf (json : SerdeJson V) (i : Nat) (fs : List StreamingToolCall) : List (Nat × StreamingChoice V) :=
  fs.filterMap (completeCall json) ++ ((fs.foldl entryStep none).bind (flushed json i)).toList

theorem completeCall_of_unnamed (h : g.function.name.getD "" = "") : completeCall json g = none := by
  simp [completeCall, h]

theorem named_of_wellFormed (h : WellFormedCall json (f :: later)) :
    ∃ id name, f.id = some id ∧ f.function.name = some name ∧ name ≠ "" := by
  obtain ⟨hid, hname, -, -⟩ := h
  obtain ⟨id, hid⟩ := Option.isSome_iff_exists.1 hid
  cases hf : f.function.name with
  | none => simp [hf] at hname
  | some name => exact ⟨id, name, hid, rfl, by simpa [hf] using hname⟩

theorem expectedCall_of_named {id name : String} (hid : f.id = some id) (hf : f.function.name = some name) :
    expectedCall json (f :: later) = .toolCall id none name
      (if argumentText (f :: later) = "" then json.emptyObject
        else (json.value (argumentText (f :: later))).getD json.emptyObject) := by
  simp [expectedCall, hid, hf]

/-- The flush of an entry under the empty name is not the call. -/
theorem flushed_unnamed_ne {i : Nat} {call : PartialCall} {id name : String} {v : V} (hname : name ≠ "")
    (hcall : call.name = "") : (flushed json i call).toList ≠ [(i, .toolCall id none name v)] := by
  intro heq
  unfold flushed at heq
  cases hvalue : json.value call.arguments with
  | none => simp [hvalue] at heq
  | some w =>
    simp only [hvalue, Option.map_some, Option.toList_some, List.cons.injEq, Prod.mk.injEq,
      StreamingChoice.toolCall.injEq] at heq
    exact hname (heq.1.2.2.2.1.symm.trans hcall)

/-- For an index the first fragment may yield a call at once, and the flush what the fragments leave. -/
theorem callsOf_cons {i : Nat} (hnames : ∀ g ∈ later, g.function.name.getD "" = "") :
    callsOf json i (f :: later) =
      (completeCall json f).toList ++ ((later.foldl entryStep (entryStep none f)).bind (flushed json i)).toList := by
  have hlater : later.filterMap (completeCall json) = [] :=
    List.filterMap_eq_nil_iff.2 fun g hg => completeCall_of_unnamed (hnames g hg)
  unfold callsOf
  rw [List.filterMap_cons, hlater, List.foldl_cons]
  cases completeCall json f <;> rfl

/-- Of a call begun without arguments only the flush yields: not under another name, and not without a text. -/
theorem callsOf_begun_without {i : Nat} (h : WellFormedCall json (f :: later)) (hargs : f.function.arguments = "") :
    callsOf json i (f :: later) = [(i, expectedCall json (f :: later))] ↔
      (∀ g ∈ later, ¬ Restarts g) ∧ argumentText (f :: later) ≠ "" := by
  obtain ⟨id, name, hid, hf, hname⟩ := named_of_wellFormed h
  obtain ⟨-, -, hnames, htext⟩ := h
  obtain ⟨hkept, hrestarted⟩ := @foldl_entryStep later (entryStep none f) hnames
  have hstart : entryStep none f = some ⟨id, name, ""⟩ := by simp [entryStep, Restarts, hf, hargs, hid]
  have hcomplete : completeCall json f = none := by simp [completeCall, hargs]
  have hwhole : argumentText (f :: later) = argumentText later := by rw [argumentText_cons, hargs, String.empty_append]
  rw [callsOf_cons hnames, expectedCall_of_named hid hf, hcomplete, ← leftover_eq_none]
  cases hleft : leftover later with
  | none =>
    rw [hkept hleft, hstart]
    rw [hwhole] at htext ⊢
    by_cases hempty : argumentText later = ""
    · simp [flushed, hempty, json.value_empty]
    · obtain ⟨v, hv⟩ := Option.isSome_iff_exists.1 (htext.resolve_left hempty)
      simp [flushed, hempty, hv]
  | some u =>
    obtain ⟨id', hentry⟩ := hrestarted u hleft
    rw [hentry]
    exact ⟨fun heq => absurd heq (flushed_unnamed_ne hname rfl), fun hnone => by cases hnone.1⟩

/-- Of a call begun with arguments the first fragment yields these, and the flush only what follows a restart. -/
theorem callsOf_begun_with (h : WellFormedCall json (f :: later)) (hargs : f.function.arguments ≠ "") :
    callsOf json f.index (f :: later) = [(f.index, expectedCall json (f :: later))] ↔
      json.value f.function.arguments = json.value (argumentText (f :: later)) ∧
        ∀ u ∈ leftover later, json.value u = none := by
  obtain ⟨id, name, hid, hf, hname⟩ := named_of_wellFormed h
  obtain ⟨-, -, hnames, htext⟩ := h
  obtain ⟨hkept, hrestarted⟩ := @foldl_entryStep later (entryStep none f) hnames
  have hstart : entryStep none f = none := by simp [entryStep, Restarts, hf, hargs, hname]
  have hne : argumentText (f :: later) ≠ "" := by
    rw [argumentText_cons]
    simpa [String.append_eq_empty_iff] using fun h => absurd h hargs
  obtain ⟨v, hv⟩ := Option.isSome_iff_exists.1 (htext.resolve_left hne)
  have hcomplete : completeCall json f = (json.value f.function.arguments).map fun arguments =>
      (f.index, .toolCall id none name arguments) := by
    simp [completeCall, hf, hname, hargs, hid]
  rw [hstart] at hkept hrestarted
  rw [callsOf_cons hnames, expectedCall_of_named hid hf, hcomplete, hstart, if_neg hne, hv]
  cases hleft : leftover later with
  | none =>
    rw [hkept hleft]
    cases hvalue : json.value f.function.arguments <;> simp
  | some u =>
    obtain ⟨id', hentry⟩ := hrestarted u hleft
    rw [hentry]
    cases hvalue : json.value f.function.arguments with
    | none => cases hu : json.value u <;> simp [flushed, hu, hname.symm]
    | some w => cases hu : json.value u <;> simp [flushed, hu]

/-- Exactly the expected call is yielded for an index when the code keeps it. -/
theorem callsOf_eq_iff {i : Nat} (hindex : f.index = i) (h : WellFormedCall json (f :: later)) :
    callsOf json i (f :: later) = [(i, expectedCall json (f :: later))] ↔ CallKept json (f :: later) := by
  subst hindex
  by_cases hargs : f.function.arguments = ""
  · rw [callsOf_begun_without h hargs, CallKept, if_pos hargs]
  · rw [callsOf_begun_with h hargs, CallKept, if_neg hargs]

end

/-- A list of tagged values has each of the wanted tags once, with its value, in ascending order. -/
theorem ascending_iff {β : Type} {xs : List (Nat × β)} {g : Nat → β} {wanted : Nat → Prop} [DecidablePred wanted] :
    (∃ is : List Nat, is.Pairwise (· < ·) ∧ (∀ i, i ∈ is ↔ wanted i) ∧ xs = is.map fun i => (i, g i)) ↔
      (∀ i, (xs.filter fun x => x.1 == i) = if wanted i then [(i, g i)] else []) ∧
        (xs.map Prod.fst).Pairwise (· < ·) := by
  constructor
  · rintro ⟨is, hpairwise, hwanted, rfl⟩
    have hnodup : is.Nodup := hpairwise.imp fun h => Nat.ne_of_lt h
    refine ⟨fun i => ?_, by simpa [Function.comp_def] using hpairwise⟩
    have hfilter : (is.filter fun j => j == i) = if wanted i then [i] else [] := by
      rw [List.filter_beq]
      split
      · next hi => rw [List.count_eq_one_of_mem hnodup ((hwanted i).2 hi), List.replicate_one]
      · next hi => rw [List.count_eq_zero_of_not_mem (mt (hwanted i).1 hi), List.replicate_zero]
    rw [List.filter_map]
    simp only [Function.comp_def, hfilter]
    split <;> rfl
  · rintro ⟨hfilter, hpairwise⟩
    have hvalue : ∀ x ∈ xs, wanted x.1 ∧ x = (x.1, g x.1) := by
      intro x hx
      have hmem : x ∈ xs.filter fun y => y.1 == x.1 := List.mem_filter.2 ⟨hx, by simp⟩
      rw [hfilter] at hmem
      split at hmem
      · next hwanted => exact ⟨hwanted, List.mem_singleton.1 hmem⟩
      · cases hmem
    refine ⟨xs.map Prod.fst, hpairwise, fun i => ⟨fun hi => ?_, fun hi => ?_⟩, ?_⟩
    · obtain ⟨x, hx, rfl⟩ := List.mem_map.1 hi
      exact (hvalue x hx).1
    · have hmem : (i, g i) ∈ xs.filter fun y => y.1 == i := by
        rw [hfilter, if_pos hi]
        exact List.mem_singleton_self _
      exact List.mem_map.2 ⟨_, (List.mem_filter.1 hmem).1, rfl⟩
    · rw [List.map_map]
      conv => lhs; rw [← List.map_id xs]
      exact List.map_congr_left fun x hx => (hvalue x hx).2

section
variable {V : Type} {json : SerdeJson V}

theorem completeCall_index {f : StreamingToolCall} {x : Nat × StreamingChoice V} (h : completeCall json f = some x) :
    x.1 = f.index := by
  unfold completeCall at h
  split at h
  · obtain ⟨v, -, rfl⟩ := Option.map_eq_some_iff.1 h
    rfl
  · cases h

theorem flushed_index {i : Nat} {call : PartialCall} {x : Nat × StreamingChoice V} (h : flushed json i call = some x) :
    x.1 = i := by
  obtain ⟨v, -, rfl⟩ := Option.map_eq_some_iff.1 h
  rfl

/-- A tagged filter goes through to what the values are made from. -/
theorem filter_filterMap_of_tag {α β : Type} {tag : α → Nat} {make : α → Option (Nat × β)}
    (h : ∀ a x, make a = some x → x.1 = tag a) (i : Nat) (xs : List α) :
    ((xs.filterMap make).filter fun x => x.1 == i) = (xs.filter fun a => tag a == i).filterMap make := by
  induction xs with
  | nil => rfl
  | cons a xs ih =>
    cases hmake : make a with
    | none =>
      by_cases htag : tag a = i <;> simp [hmake, htag, ih]
    | some x =>
      have hx := h a x hmake
      by_cases htag : tag a = i <;> simp [hmake, hx, htag, ih]

theorem filter_dlookup {entries : List (Σ _ : Nat, PartialCall)} (h : entries.NodupKeys) (i : Nat) :
    (entries.filter fun e => e.1 == i) = (entries.dlookup i).toList.map fun call => ⟨i, call⟩ := by
  induction entries with
  | nil => rfl
  | cons e es ih =>
    obtain ⟨hfresh, hnodup⟩ := List.nodupKeys_cons.1 h
    by_cases he : e.1 = i
    · have hnone : (es.filter fun e => e.1 == i) = [] := by
        refine List.filter_eq_nil_iff.2 fun x hx heq => hfresh ?_
        rw [he, ← eq_of_beq heq]
        exact List.mem_map.2 ⟨x, hx, rfl⟩
      obtain ⟨j, call⟩ := e
      subst he
      simp [hnone]
    · rw [List.dlookup_cons_ne _ _ (Ne.symm he), ← ih hnodup]
      simp [he]

/-- The entries of an index, in whatever order the map hands them out. -/
theorem filter_entries {calls : ToolCalls} {entries : List (Σ _ : Nat, PartialCall)}
    (hperm : entries.Perm calls.entries) (i : Nat) :
    (entries.filter fun e => e.1 == i) = (calls.lookup i).toList.map fun call => ⟨i, call⟩ := by
  have hfilter := hperm.filter fun e => e.1 == i
  rw [filter_dlookup calls.nodupKeys] at hfilter
  change _ = (calls.entries.dlookup i).toList.map _
  cases hlookup : calls.entries.dlookup i with
  | none =>
    rw [hlookup] at hfilter
    exact hfilter.eq_nil
  | some call =>
    rw [hlookup] at hfilter
    exact List.perm_singleton.1 hfilter

/-- What the flush yields, with the indices. -/
def flushedCalls (json : SerdeJson V) (entries : List (Σ _ : Nat, PartialCall)) : List (Nat × StreamingChoice V) :=
  entries.filterMap fun e => flushed json e.1 e.2

/-- All calls of a stream: those yielded at once, then those of the flush. -/
theorem stream_calls {order : List (Σ _ : Nat, PartialCall) → List (Σ _ : Nat, PartialCall)} {items : List SseItem}
    (h : ∀ item ∈ items, ∃ data, item = .message data) :
    (streamChatCompletions json order items).filterMap Yielded.call =
      (fragments json items).filterMap (completeCall json) ++
        flushedCalls json (order (onToolCalls json ∅ (fragments json items)).1.entries) := by
  obtain ⟨hstate, hcalls, -⟩ := readEvents_spec json ⟨.new, ∅⟩ h
  have hflush : ∀ entries : List (Σ _ : Nat, PartialCall),
      (entries.filterMap (flushCall json)).filterMap Yielded.call = flushedCalls json entries := by
    intro entries
    rw [List.filterMap_filterMap, flushedCalls]
    congr 1
    funext e
    cases hvalue : json.value e.2.arguments <;> simp [flushCall, flushed, hvalue, Yielded.call]
  simp only [streamChatCompletions, List.filterMap_append, hcalls, hstate, hflush]
  simp [Yielded.call]

theorem stream_others {order : List (Σ _ : Nat, PartialCall) → List (Σ _ : Nat, PartialCall)} {items : List SseItem}
    (h : ∀ item ∈ items, ∃ data, item = .message data) :
    (streamChatCompletions json order items).filterMap Yielded.text = contents json items ∧
      ∃ before last, streamChatCompletions json order items = before ++ [last] ∧ last.isFinal = true ∧
        ∀ y ∈ before, y.isFinal = false := by
  obtain ⟨-, -, htexts, hfinals⟩ := readEvents_spec json ⟨.new, ∅⟩ h
  have hflush : ∀ entries : List (Σ _ : Nat, PartialCall), ∀ y ∈ entries.filterMap (flushCall json),
      y.text = none ∧ y.isFinal = false := by
    intro entries y hy
    obtain ⟨e, -, he⟩ := List.mem_filterMap.1 hy
    obtain ⟨v, -, rfl⟩ := Option.map_eq_some_iff.1 he
    exact ⟨rfl, rfl⟩
  refine ⟨?_, _, _, rfl, rfl, List.forall_mem_append.2 ⟨hfinals, fun y hy => (hflush _ y hy).2⟩⟩
  have hnone : ∀ entries : List (Σ _ : Nat, PartialCall),
      (entries.filterMap (flushCall json)).filterMap Yielded.text = [] := fun entries =>
    List.filterMap_eq_nil_iff.2 fun y hy => (hflush entries y hy).1
  simp only [streamChatCompletions, List.filterMap_append, htexts, hnone]
  simp [Yielded.text]

/-- What is yielded for one index depends on its fragments alone. -/
theorem filter_calls (fs : List StreamingToolCall) {entries : List (Σ _ : Nat, PartialCall)}
    (hperm : entries.Perm (onToolCalls json ∅ fs).1.entries) (i : Nat) :
    ((fs.filterMap (completeCall json) ++ flushedCalls json entries).filter fun x => x.1 == i) =
      callsOf json i (at_ i fs) := by
  rw [List.filter_append, callsOf, filter_filterMap_of_tag (fun f x hx => completeCall_index hx) i fs, flushedCalls,
    filter_filterMap_of_tag (fun e x hx => flushed_index hx) i entries, filter_entries hperm, onToolCalls_lookup]
  congr 1
  cases hentry : (at_ i fs).foldl entryStep ((∅ : ToolCalls).lookup i) with
  | none =>
    rw [AList.lookup_empty] at hentry
    simp [hentry]
  | some call =>
    rw [AList.lookup_empty] at hentry
    cases hcall : flushed json i call <;> simp [hentry, hcall]

theorem mem_at {f : StreamingToolCall} {fs : List StreamingToolCall} (h : f ∈ fs) : f ∈ at_ f.index fs :=
  List.mem_filter.2 ⟨h, by simp⟩

theorem index_of_at {i : Nat} {f : StreamingToolCall} {fs : List StreamingToolCall} (h : f ∈ at_ i fs) : f.index = i := by
  simpa using (List.mem_filter.1 h).2

/-- At each index exactly the expected call is yielded, when the code keeps every call. -/
theorem each_call_iff {fs : List StreamingToolCall} (h : ∀ i, WellFormedCall json (at_ i fs)) (i : Nat) :
    callsOf json i (at_ i fs) = (if at_ i fs ≠ [] then [(i, expectedCall json (at_ i fs))] else []) ↔
      CallKept json (at_ i fs) := by
  cases hat : at_ i fs with
  | nil => simp [callsOf, CallKept]
  | cons f later =>
    have hindex : f.index = i := index_of_at (by rw [hat]; exact List.mem_cons_self ..)
    have hcall := h i
    rw [hat] at hcall
    simpa using callsOf_eq_iff hindex hcall

/-! The order of the calls, when the code keeps every one of them. -/

theorem first_of_named {i : Nat} {f : StreamingToolCall} {fs : List StreamingToolCall}
    (h : WellFormedCall json (at_ i fs)) (hf : f ∈ at_ i fs) (hname : f.function.name.getD "" ≠ "") :
    ∃ later, at_ i fs = f :: later := by
  cases hat : at_ i fs with
  | nil =>
    rw [hat] at hf
    cases hf
  | cons g later =>
    rw [hat] at h hf
    rcases List.mem_cons.1 hf with rfl | hlater
    · exact ⟨later, rfl⟩
    · exact absurd (h.2.2.1 f hlater) hname

/-- Arguments that a kept call begins with are a value. -/
theorem value_of_begun {f : StreamingToolCall} {later : List StreamingToolCall} (h : WellFormedCall json (f :: later))
    (hkept : CallKept json (f :: later)) (hargs : f.function.arguments ≠ "") :
    ∃ v, json.value f.function.arguments = some v := by
  unfold CallKept at hkept
  dsimp only at hkept
  rw [if_neg hargs] at hkept
  have htext : argumentText (f :: later) ≠ "" := by
    rw [argumentText_cons]
    simpa [String.append_eq_empty_iff] using fun h => absurd h hargs
  rw [hkept.1]
  exact Option.isSome_iff_exists.1 (h.2.2.2.resolve_left htext)

theorem tags_at_once {fs : List StreamingToolCall} (h : ∀ i, WellFormedCall json (at_ i fs))
    (hkept : ∀ i, CallKept json (at_ i fs)) :
    (fs.filterMap (completeCall json)).map Prod.fst = begunWithArguments fs := by
  have hvalue : ∀ f ∈ fs, f.function.name.getD "" ≠ "" → f.function.arguments ≠ "" →
      ∃ v, json.value f.function.arguments = some v := by
    intro f hf hname hargs
    obtain ⟨later, hat⟩ := first_of_named (h f.index) (mem_at hf) hname
    exact value_of_begun (hat ▸ h f.index) (hat ▸ hkept f.index) hargs
  clear h hkept
  unfold begunWithArguments
  induction fs with
  | nil => rfl
  | cons f fs ih =>
    obtain ⟨hf, hfs⟩ := List.forall_mem_cons.1 hvalue
    by_cases hbegun : f.function.name.getD "" ≠ "" ∧ f.function.arguments ≠ ""
    · obtain ⟨v, hv⟩ := hf hbegun.1 hbegun.2
      have hcomplete : completeCall json f = some (f.index, .toolCall (f.id.getD "") none (f.function.name.getD "") v) := by
        rw [completeCall, if_pos hbegun, hv]
        rfl
      rw [List.filterMap_cons_some hcomplete, List.filter_cons_of_pos (by simpa using hbegun), List.map_cons,
        List.map_cons, ih hfs]
    · have hcomplete : completeCall json f = none := by rw [completeCall, if_neg hbegun]
      rw [List.filterMap_cons_none hcomplete, List.filter_cons_of_neg (by simpa using hbegun), ih hfs]

theorem mem_begunWithout {fs : List StreamingToolCall} (h : ∀ i, WellFormedCall json (at_ i fs)) (i : Nat) :
    i ∈ begunWithout fs ↔ ∃ f later, at_ i fs = f :: later ∧ f.function.arguments = "" := by
  constructor
  · intro hi
    obtain ⟨f, hf, rfl⟩ := List.mem_map.1 hi
    obtain ⟨hf, hbegun⟩ := List.mem_filter.1 hf
    obtain ⟨hname, hargs⟩ := of_decide_eq_true hbegun
    obtain ⟨later, hat⟩ := first_of_named (h f.index) (mem_at hf) hname
    exact ⟨f, later, hat, hargs⟩
  · rintro ⟨f, later, hat, hargs⟩
    have hcall := h i
    rw [hat] at hcall
    have hf : f ∈ at_ i fs := by
      rw [hat]
      exact List.mem_cons_self ..
    refine List.mem_map.2 ⟨f, List.mem_filter.2 ⟨(List.mem_filter.1 hf).1, ?_⟩, index_of_at hf⟩
    exact decide_eq_true ⟨hcall.2.1, hargs⟩

/-- The flush yields the calls begun without arguments. -/
theorem mem_flushed_tags {fs : List StreamingToolCall} (h : ∀ i, WellFormedCall json (at_ i fs))
    (hkept : ∀ i, CallKept json (at_ i fs)) {entries : List (Σ _ : Nat, PartialCall)}
    (hperm : entries.Perm (onToolCalls json ∅ fs).1.entries) (i : Nat) :
    i ∈ (flushedCalls json entries).map Prod.fst ↔ i ∈ begunWithout fs := by
  have hfilter := filter_calls fs hperm i
  rw [(each_call_iff h i).2 (hkept i), List.filter_append,
    filter_filterMap_of_tag (fun f x hx => completeCall_index hx) i fs] at hfilter
  have hmem : i ∈ (flushedCalls json entries).map Prod.fst ↔
      ((flushedCalls json entries).filter fun x => x.1 == i) ≠ [] := by
    simp [List.filter_eq_nil_iff]
  rw [hmem, mem_begunWithout h]
  change (at_ i fs).filterMap (completeCall json) ++ _ = _ at hfilter
  cases hat : at_ i fs with
  | nil =>
    rw [hat] at hfilter
    have hnil := (List.append_eq_nil_iff.1 hfilter).2
    simp [hnil]
  | cons f later =>
    have hcall := h i
    have hkeep := hkept i
    rw [hat] at hfilter hcall hkeep
    have hlater : later.filterMap (completeCall json) = [] :=
      List.filterMap_eq_nil_iff.2 fun g hg => completeCall_of_unnamed (hcall.2.2.1 g hg)
    rw [if_pos (List.cons_ne_nil _ _), List.filterMap_cons, hlater] at hfilter
    constructor
    · intro hne
      refine ⟨f, later, rfl, ?_⟩
      by_contra hargs
      obtain ⟨v, hv⟩ := value_of_begun hcall hkeep hargs
      have hcomplete : completeCall json f = some (f.index, .toolCall (f.id.getD "") none (f.function.name.getD "") v) := by
        rw [completeCall, if_pos ⟨hcall.2.1, hargs⟩, hv]
        rfl
      rw [hcomplete] at hfilter
      exact hne (List.cons.inj hfilter).2
    · rintro ⟨f', later', heq, hargs⟩ hnil
      obtain ⟨rfl, rfl⟩ := List.cons.inj heq
      have hcomplete : completeCall json f = none := by simp [completeCall, hargs]
      rw [hcomplete, hnil] at hfilter
      cases hfilter

theorem nodup_flushed_tags {fs : List StreamingToolCall} {entries : List (Σ _ : Nat, PartialCall)}
    (hperm : entries.Perm (onToolCalls json ∅ fs).1.entries) : ((flushedCalls json entries).map Prod.fst).Nodup := by
  have hkeys : (entries.map Sigma.fst).Nodup := (hperm.map Sigma.fst).nodup_iff.2 (onToolCalls json ∅ fs).1.nodupKeys
  refine List.Nodup.sublist ?_ hkeys
  clear hperm hkeys
  unfold flushedCalls
  induction entries with
  | nil => exact .slnil
  | cons e entries ih =>
    rw [List.filterMap_cons]
    cases hcall : flushed json e.1 e.2 with
    | none => exact ih.cons _
    | some x =>
      dsimp only
      rw [List.map_cons, List.map_cons, flushed_index hcall]
      exact ih.cons_cons _

/-- The indices of all calls ascend, however the map hands out its entries, when the calls are in order. -/
theorem ascending_tags_iff {fs : List StreamingToolCall} (h : ∀ i, WellFormedCall json (at_ i fs))
    (hkept : ∀ i, CallKept json (at_ i fs)) :
    (∀ order : List (Σ _ : Nat, PartialCall) → List (Σ _ : Nat, PartialCall), (∀ l, (order l).Perm l) →
        ((fs.filterMap (completeCall json) ++
          flushedCalls json (order (onToolCalls json ∅ fs).1.entries)).map Prod.fst).Pairwise (· < ·)) ↔
      InOrder fs := by
  have hflushed := fun entries => @mem_flushed_tags V json fs h hkept entries
  constructor
  · intro hascending
    -- in two opposite orders both ascending, the flush can only have one index
    have hone := hascending id fun l => .refl l
    have hreverse := hascending List.reverse fun l => l.reverse_perm
    rw [List.map_append, tags_at_once h hkept, List.pairwise_append] at hone hreverse
    obtain ⟨hatOnce, hup, hlast⟩ := hone
    have hdown := hreverse.2.1
    rw [flushedCalls, List.filterMap_reverse, List.map_reverse, List.pairwise_reverse] at hdown
    have hequal : ((flushedCalls json (onToolCalls json ∅ fs).1.entries).map Prod.fst).Pairwise (· = ·) :=
      (hup.and hdown).imp fun hlt => absurd hlt.1 (Nat.lt_asymm hlt.2)
    have hsame : ∀ i ∈ begunWithout fs, ∀ j ∈ begunWithout fs, i = j := by
      intro i hi j hj
      have hi' := (hflushed _ (.refl _) i).2 hi
      have hj' := (hflushed _ (.refl _) j).2 hj
      exact hequal.forall_of_forall (fun _ _ => rfl) hi' hj'
    exact ⟨hatOnce, hsame, fun i hi j hj => hlast i hi j ((hflushed _ (.refl _) j).2 hj)⟩
  · rintro ⟨hatOnce, hsame, hlast⟩ order hperm
    rw [List.map_append, tags_at_once h hkept, List.pairwise_append]
    have hmem := hflushed _ (hperm (onToolCalls json ∅ fs).1.entries)
    refine ⟨hatOnce, ?_, fun i hi j hj => hlast i hi j ((hmem j).1 hj)⟩
    have hnodup := nodup_flushed_tags (hperm (onToolCalls json ∅ fs).1.entries)
    refine hnodup.imp_of_mem ?_
    intro i j hi hj hne
    exact absurd (hsame i ((hmem i).1 hi) j ((hmem j).1 hj)) hne

/-- A well-formed stream is reassembled, however the map hands out its entries, exactly when the code keeps every
call and the calls begin in order. -/
theorem stream_reassembles_iff {items : List SseItem} (h : WellFormedStream json items) :
    (∀ order : List (Σ _ : Nat, PartialCall) → List (Σ _ : Nat, PartialCall), (∀ l, (order l).Perm l) →
        Reassembles json items (streamChatCompletions json order items)) ↔
      (∀ i, CallKept json (at_ i (fragments json items))) ∧ InOrder (fragments json items) := by
  obtain ⟨hmessages, hcalls⟩ := h
  have hat : ∀ order : List (Σ _ : Nat, PartialCall) → List (Σ _ : Nat, PartialCall), (∀ l, (order l).Perm l) →
      (Reassembles json items (streamChatCompletions json order items) ↔
        (∀ i, CallKept json (at_ i (fragments json items))) ∧
          (((fragments json items).filterMap (completeCall json) ++ flushedCalls json
            (order (onToolCalls json ∅ (fragments json items)).1.entries)).map Prod.fst).Pairwise (· < ·)) := by
    intro order hperm
    have hfilter := @filter_calls V json (fragments json items) _ (hperm _)
    have hascending := @ascending_iff _ ((fragments json items).filterMap (completeCall json) ++
        flushedCalls json (order (onToolCalls json ∅ (fragments json items)).1.entries))
      (fun i => expectedCall json (at_ i (fragments json items))) (fun i => at_ i (fragments json items) ≠ []) _
    simp only [hfilter, each_call_iff hcalls] at hascending
    obtain ⟨htext, hfinal⟩ := @stream_others V json order items hmessages
    rw [← hascending, ← stream_calls hmessages]
    exact ⟨fun hre => hre.calls, fun hc => ⟨hc, by rw [htext], hfinal⟩⟩
  constructor
  · intro hre
    have hkept := ((hat id fun l => .refl l).1 (hre id fun l => .refl l)).1
    exact ⟨hkept, (ascending_tags_iff hcalls hkept).1 fun order hperm => ((hat order hperm).1 (hre order hperm)).2⟩
  · rintro ⟨hkept, hin⟩ order hperm
    exact (hat order hperm).2 ⟨hkept, (ascending_tags_iff hcalls hkept).2 hin order hperm⟩

end

/-! The stream of the repository's test, and the same call begun with a part of its arguments. -/

/-- The data of a chunk with one fragment at index 0, of texts that are JSON already. -/
def toolCallData (id name arguments : String) : String :=
  "\x7b" ++ "\"choices\":[\x7b\"delta\":\x7b\"content\":null,\"tool_calls\":[\x7b\"index\":0,\"id\":" ++ id ++
    ",\"function\":\x7b\"name\":" ++ name ++ ",\"arguments\":" ++ arguments ++ "\x7d\x7d]\x7d\x7d],\"usage\":null\x7d"

def sampleChunk (id name : Option String) (arguments : String) : StreamingCompletionChunk :=
  ⟨[⟨⟨none, [⟨0, id, ⟨name, arguments⟩⟩]⟩⟩], none⟩

def startData : String := toolCallData "\"call_123\"" "\"get_weather\"" "\"\""
def begunData : String := toolCallData "\"call_123\"" "\"get_weather\"" "\"\x7b\\\"loc\""
def pieceData : String := toolCallData "null" "null" "\"\x7b\\\"loc\""
def lastData : String := toolCallData "null" "null" "\"ation\\\":\\\"NYC\\\"\x7d\""

/-- `serde_json` on these texts; a value is the list of an object's entries. -/
def sampleSerde : SerdeJson (List (String × String)) where
  chunk data :=
    [(startData, sampleChunk (some "call_123") (some "get_weather") ""),
      (begunData, sampleChunk (some "call_123") (some "get_weather") "\x7b\"loc"),
      (pieceData, sampleChunk none none "\x7b\"loc"),
      (lastData, sampleChunk none none "ation\":\"NYC\"\x7d")].lookup data
  value text :=
    [("\x7b\"location\":\"NYC\"\x7d", [("location", "NYC")]), ("\x7b\x7d", [])].lookup text
  emptyObject := []
  value_empty := rfl

def testStream : List SseItem := [.message startData, .message pieceData, .message lastData, .message "[DONE]"]

def begunStream : List SseItem := [.message begunData, .message lastData, .message "[DONE]"]


/-- A text that begins with a brace is no mark: trimming leaves the brace. -/
theorem isMark_toolCallData (id name arguments : String) : isMark (toolCallData id name arguments) = false := by
  obtain ⟨rest, htext⟩ : ∃ rest, (toolCallData id name arguments).toList = '\x7b' :: rest :=
    ⟨_, by simp only [toolCallData, String.toList_append]; rfl⟩
  have hkept : ∃ tail, (trim (toolCallData id name arguments)).toList = '\x7b' :: tail := by
    rw [trim, htext, String.toList_ofList, List.dropWhile_cons_of_neg (by decide)]
    have hpre := List.rdropWhile_prefix isWhitespace ('\x7b' :: rest)
    rcases List.prefix_cons_iff.1 hpre with hnil | ⟨tail, htail, -⟩
    · exact absurd (List.rdropWhile_eq_nil_iff.1 hnil _ (List.mem_cons_self ..)) (by decide)
    · exact ⟨tail, htail⟩
  obtain ⟨tail, htail⟩ := hkept
  have hne : ∀ mark : String, mark.toList.head? ≠ some '\x7b' → trim (toolCallData id name arguments) ≠ mark := by
    rintro mark hmark rfl
    exact hmark (by rw [htail]; rfl)
  simp [isMark, hne "" (by decide), hne "[DONE]" (by decide)]

theorem chunkOf_toolCallData (id name arguments : String) :
    chunkOf sampleSerde (.message (toolCallData id name arguments)) =
      sampleSerde.chunk (toolCallData id name arguments) := by
  rw [chunkOf, isMark_toolCallData, if_neg Bool.false_ne_true]

/-- The chunks of the sample texts. -/
theorem sample_chunks :
    chunkOf sampleSerde (.message startData) = some (sampleChunk (some "call_123") (some "get_weather") "") ∧
      chunkOf sampleSerde (.message begunData) =
        some (sampleChunk (some "call_123") (some "get_weather") "\x7b\"loc") ∧
      chunkOf sampleSerde (.message pieceData) = some (sampleChunk none none "\x7b\"loc") ∧
      chunkOf sampleSerde (.message lastData) = some (sampleChunk none none "ation\":\"NYC\"\x7d") ∧
      chunkOf sampleSerde (.message "[DONE]") = none := by
  have hbegun : (begunData == startData) = false := by decide +kernel
  have hpiece : (pieceData == startData) = false ∧ (pieceData == begunData) = false := by decide +kernel
  have hlast : (lastData == startData) = false ∧ (lastData == begunData) = false ∧ (lastData == pieceData) = false := by
    decide +kernel
  refine ⟨?_, ?_, ?_, ?_, by decide +kernel⟩
  · rw [startData, chunkOf_toolCallData]
    simp [sampleSerde, startData]
  · rw [begunData, chunkOf_toolCallData, ← begunData]
    simp [sampleSerde, List.lookup_cons, hbegun]
  · rw [pieceData, chunkOf_toolCallData, ← pieceData]
    simp [sampleSerde, List.lookup_cons, hpiece]
  · rw [lastData, chunkOf_toolCallData, ← lastData]
    simp [sampleSerde, List.lookup_cons, hlast]

theorem testStream_fragments : fragments sampleSerde testStream =
    [⟨0, some "call_123", ⟨some "get_weather", ""⟩⟩, ⟨0, none, ⟨none, "\x7b\"loc"⟩⟩,
      ⟨0, none, ⟨none, "ation\":\"NYC\"\x7d"⟩⟩] := by
  simp [fragments, testStream, sample_chunks, sampleChunk]

theorem begunStream_fragments : fragments sampleSerde begunStream =
    [⟨0, some "call_123", ⟨some "get_weather", "\x7b\"loc"⟩⟩, ⟨0, none, ⟨none, "ation\":\"NYC\"\x7d"⟩⟩] := by
  simp [fragments, begunStream, sample_chunks, sampleChunk]

theorem messages_of_data (data : List String) : ∀ item ∈ data.map SseItem.message, ∃ text, item = .message text := by
  intro item hitem
  obtain ⟨text, -, rfl⟩ := List.mem_map.1 hitem
  exact ⟨text, rfl⟩

/-- The stream of the test is reassembled. -/
theorem testStream_reassembled :
    Reassembles sampleSerde testStream (streamChatCompletions sampleSerde List.reverse testStream) := by
  have hwell : WellFormedStream sampleSerde testStream := by
    refine ⟨messages_of_data [startData, pieceData, lastData, "[DONE]"], fun i => ?_⟩
    rw [testStream_fragments]
    cases i with
    | zero => exact ⟨rfl, by decide, by decide, .inr rfl⟩
    | succ i => trivial
  refine (stream_reassembles_iff hwell).2 ⟨fun i => ?_, ?_⟩ List.reverse fun l => l.reverse_perm
  · rw [testStream_fragments]
    cases i with
    | zero => exact ⟨by decide, by decide⟩
    | succ i => trivial
  · rw [testStream_fragments]
    exact ⟨by decide, by decide, by decide⟩

/-- The same call, begun with a part of its arguments, is never yielded. -/
theorem begun_call_lost : WellFormedStream sampleSerde begunStream ∧
    ¬ Reassembles sampleSerde begunStream (streamChatCompletions sampleSerde id begunStream) := by
  have hmessages : ∀ item ∈ begunStream, ∃ text, item = .message text :=
    messages_of_data [begunData, lastData, "[DONE]"]
  constructor
  · refine ⟨hmessages, fun i => ?_⟩
    rw [begunStream_fragments]
    cases i with
    | zero => exact ⟨rfl, by decide, by decide, .inr rfl⟩
    | succ i => trivial
  · intro h
    obtain ⟨is, -, hmem, hcalls⟩ := h.calls
    have hnone : (streamChatCompletions sampleSerde id begunStream).filterMap Yielded.call = [] := by
      rw [stream_calls hmessages]
      rw [begunStream_fragments]
      decide
    rw [hnone] at hcalls
    have h0 : 0 ∈ is := (hmem 0).2 (by rw [begunStream_fragments]; decide)
    cases is with
    | nil => cases h0
    | cons i is => cases hcalls

end Fusions.Ai
