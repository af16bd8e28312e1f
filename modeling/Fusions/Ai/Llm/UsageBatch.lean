import Mathlib.Algebra.Order.Group.Multiset
import Mathlib.Tactic.Abel
import Fusions.Library.Runs

/-! The batch pipeline of usage events: sinks that never block, a bounded channel, and a writer that
hands batches to `write_batch` with bounded retries. -/
namespace Fusions.Ai
open Fusions.Library
variable {E : Type}

/-- The largest batch. -/
def maxBatch : Nat := 64

/-- The attempts for a batch, the first one included. -/
def maxWriteAttempts : Nat := 3

/-- `AtomicU64::fetch_add`. -/
def fetchAdd (counter n : Nat) : Nat := (counter + n) % 2 ^ 64

structure UsageMetrics where
  dropped : Nat
  writeFailed : Nat
  workerRestart : Nat
  deriving DecidableEq, Repr

namespace UsageMetrics

def incDropped (m : UsageMetrics) : UsageMetrics := { m with dropped := fetchAdd m.dropped 1 }

def incWriteFailed (m : UsageMetrics) (n : Nat) : UsageMetrics := { m with writeFailed := fetchAdd m.writeFailed n }

def incWorkerRestart (m : UsageMetrics) : UsageMetrics := { m with workerRestart := fetchAdd m.workerRestart 1 }

end UsageMetrics

/-- What one attempt of `write_batch` does: it answers, or it panics, while the closure is called or
while its future is polled. -/
inductive WriteOutcome where
  | ok
  | err (message : String)
  | panicsCalled
  | panicsPolled
  deriving DecidableEq, Repr

def WriteOutcome.isErr : WriteOutcome → Bool
  | .err _ => true
  | _ => false

/-- Where the writer task is. It holds the batch that it collects or writes; once it has ended, by
leaving the loop or by a panic, its receiver is gone. -/
inductive UsageWriter (E : Type) where
  | receiving
  | filling (batch : List E)
  | writing (batch : List E) (attempt : Nat)
  | sleeping (batch : List E) (attempt : Nat)
  | ended

namespace UsageWriter

def inHand : UsageWriter E → List E
  | .filling batch | .writing batch _ | .sleeping batch _ => batch
  | .receiving | .ended => []

/-- What is collected and not yet handed over. -/
def collected : UsageWriter E → List E
  | .filling batch => batch
  | _ => []

def isEnded : UsageWriter E → Bool
  | .ended => true
  | _ => false

end UsageWriter

/-- A batch that was handed to `write_batch`, and how its attempts went. -/
structure HandedBatch (E : Type) where
  events : List E
  outcomes : List WriteOutcome

/-- The channel, its senders and the writer. On record are the events by what became of them, and the
batches handed over, the latest first. -/
structure UsagePipeline (E : Type) where
  capacity : Nat
  senders : Nat
  channel : List E
  writer : UsageWriter E
  metrics : UsageMetrics
  recorded : List E
  accepted : List E
  dropped : List E
  written : List E
  failed : List E
  panicked : List E
  handed : List (HandedBatch E)

/-- A `record` of some sink, a clone or a drop of a sink, or a step of the writer. -/
inductive UsageAction (E : Type) where
  | record (event : E)
  | clones
  | drops
  | receives
  | fills
  | writes (outcome : WriteOutcome)
  | wakes

namespace UsagePipeline
variable (p : UsagePipeline E)

/-- `spawn_usage_batch_writer`. -/
def spawn (channelCapacity : Nat) : UsagePipeline E :=
  ⟨max channelCapacity 1, 1, [], .receiving, ⟨0, 0, 0⟩, [], [], [], [], [], [], []⟩

/-- `try_send`: a channel that is full or closed takes nothing. -/
def record (event : E) : UsagePipeline E :=
  if p.writer.isEnded ∨ p.capacity ≤ p.channel.length then
    { p with
      metrics := p.metrics.incDropped
      recorded := p.recorded ++ [event]
      dropped := p.dropped ++ [event] }
  else
    { p with
      channel := p.channel ++ [event]
      recorded := p.recorded ++ [event]
      accepted := p.accepted ++ [event] }

/-- `rx.recv()`. It waits while the channel is empty and a sender is left. -/
def receive : Option (UsagePipeline E) :=
  match p.channel with
  | event :: rest => some { p with channel := rest, writer := .filling [event] }
  | [] => if p.senders = 0 then some { p with writer := .ended } else none

/-- One round of the greedy fill. -/
def fill (batch : List E) : UsagePipeline E :=
  let full := { p with writer := .writing batch 1, handed := ⟨batch, []⟩ :: p.handed }
  if batch.length < maxBatch then
    match p.channel with
    | event :: rest => { p with channel := rest, writer := .filling (batch ++ [event]) }
    | [] => full
  else full

/-- The attempt on record. -/
def attempted (outcome : WriteOutcome) : List (HandedBatch E) → List (HandedBatch E)
  | [] => []
  | h :: rest => { h with outcomes := h.outcomes ++ [outcome] } :: rest

/-- One attempt of `write_with_retry`. The closure is called outside of what `catch_unwind` covers: a
panic there unwinds the task, and the receiver goes with what the channel still holds. -/
def write (batch : List E) (attempt : Nat) (outcome : WriteOutcome) : UsagePipeline E :=
  let p := { p with handed := attempted outcome p.handed }
  match outcome with
  | .ok => { p with writer := .receiving, written := p.written ++ batch }
  | .err _ =>
    if attempt < maxWriteAttempts then { p with writer := .sleeping batch attempt }
    else { p with
      writer := .receiving
      metrics := p.metrics.incWriteFailed batch.length
      failed := p.failed ++ batch }
  | .panicsPolled => { p with
      writer := .receiving
      metrics := p.metrics.incWorkerRestart
      panicked := p.panicked ++ batch }
  | .panicsCalled => { p with writer := .ended, channel := [], panicked := p.panicked ++ batch }

/-- The next state, if the step is possible. -/
def next : UsageAction E → Option (UsagePipeline E)
  | .record event => if p.senders = 0 then none else some (p.record event)
  | .clones => if p.senders = 0 then none else some { p with senders := p.senders + 1 }
  | .drops => if p.senders = 0 then none else some { p with senders := p.senders - 1 }
  | .receives =>
    match p.writer with
    | .receiving => p.receive
    | _ => none
  | .fills =>
    match p.writer with
    | .filling batch => some (p.fill batch)
    | _ => none
  | .writes outcome =>
    match p.writer with
    | .writing batch attempt => some (p.write batch attempt outcome)
    | _ => none
  | .wakes =>
    match p.writer with
    | .sleeping batch attempt => some { p with writer := .writing batch (attempt + 1) }
    | _ => none

end UsagePipeline

/-- The pipelines of every capacity. -/
def usagePipelines : System (UsagePipeline E) (UsageAction E) where
  init p := ∃ channelCapacity, p = .spawn channelCapacity
  step p action p' := p.next action = some p'

/-- What the pipeline promises: events are handed over in the order they came, in batches of 1 to 64
with at most three attempts of which only the last does not fail; every recorded event is in exactly one
place; and the writer ends only when no sender and no event is left. -/
structure UsagePipeline.Conserves (p : UsagePipeline E) : Prop where
  fifo : p.accepted = p.handed.reverse.flatMap HandedBatch.events ++ p.writer.collected ++ p.channel
  order : p.accepted.Sublist p.recorded
  sizes : ∀ h ∈ p.handed, 1 ≤ h.events.length ∧ h.events.length ≤ maxBatch
  attempts : ∀ h ∈ p.handed, h.outcomes.length ≤ maxWriteAttempts ∧ ∀ o ∈ h.outcomes.dropLast, o.isErr = true
  places : p.recorded.Perm (p.channel ++ p.writer.inHand ++ p.written ++ p.dropped ++ p.failed ++ p.panicked)
  counters : p.metrics.dropped = p.dropped.length % 2 ^ 64 ∧ p.metrics.writeFailed = p.failed.length % 2 ^ 64
  ends : p.writer.isEnded = true → p.senders = 0 ∧ p.channel = []

/-- `write_batch` does not panic before it returns its future. -/
def UsagePipeline.ReturnsFuture (_ : UsagePipeline E) : UsageAction E → Prop
  | .writes outcome => outcome ≠ .panicsCalled
  | _ => True

instance : (p : UsagePipeline E) → (action : UsageAction E) → Decidable (p.ReturnsFuture action)
  | _, .writes outcome => inferInstanceAs (Decidable (outcome ≠ .panicsCalled))
  | _, .record _ | _, .clones | _, .drops | _, .receives | _, .fills | _, .wakes => .isTrue trivial

namespace UsageWriter

/-- The batch in hand is of the right size, and once handed over it stands first on record with only
failed attempts, fewer than its bound. -/
def Tracks : UsageWriter E → List (HandedBatch E) → Prop
  | .filling batch, _ => 1 ≤ batch.length ∧ batch.length ≤ maxBatch
  | .writing batch attempt, handed => ∃ outcomes rest, handed = ⟨batch, outcomes⟩ :: rest ∧
      outcomes.length + 1 = attempt ∧ attempt ≤ maxWriteAttempts ∧ ∀ o ∈ outcomes, o.isErr = true
  | .sleeping batch attempt, handed => ∃ outcomes rest, handed = ⟨batch, outcomes⟩ :: rest ∧
      outcomes.length = attempt ∧ attempt < maxWriteAttempts ∧ ∀ o ∈ outcomes, o.isErr = true
  | .receiving, _ | .ended, _ => True

end UsageWriter

namespace UsagePipeline
variable {p p' : UsagePipeline E}

/-- The promises, with what the writer has in hand. -/
structure Kept (p : UsagePipeline E) : Prop extends p.Conserves where
  tracks : p.writer.Tracks p.handed

namespace Kept

theorem spawn (channelCapacity : Nat) : (UsagePipeline.spawn channelCapacity : UsagePipeline E).Kept where
  fifo := rfl
  order := List.Sublist.slnil
  sizes := by simp [UsagePipeline.spawn]
  attempts := by simp [UsagePipeline.spawn]
  places := List.Perm.nil
  counters := ⟨rfl, rfl⟩
  ends := by simp [UsagePipeline.spawn, UsageWriter.isEnded]
  tracks := trivial

theorem record (h : p.Kept) (event : E) : (p.record event).Kept := by
  unfold UsagePipeline.record
  split
  · refine { h with order := ?_, places := ?_, counters := ?_ }
    · exact h.order.trans (List.sublist_append_left ..)
    · have hplaces := h.places
      rw [← Multiset.coe_eq_coe] at hplaces ⊢
      simp only [← Multiset.coe_add] at hplaces ⊢
      rw [hplaces]
      abel
    · refine ⟨?_, h.counters.2⟩
      simp [UsageMetrics.incDropped, fetchAdd, h.counters.1]
  · next hopen =>
    refine { h with fifo := ?_, order := ?_, places := ?_, ends := ?_ }
    · simp only [h.fifo, List.append_assoc]
    · exact h.order.append (List.Sublist.refl _)
    · have hplaces := h.places
      rw [← Multiset.coe_eq_coe] at hplaces ⊢
      simp only [← Multiset.coe_add] at hplaces ⊢
      rw [hplaces]
      abel
    · exact fun hended => absurd (Or.inl hended) hopen

theorem receive (h : p.Kept) (hw : p.writer = .receiving) (hnext : p.receive = some p') : p'.Kept := by
  unfold UsagePipeline.receive at hnext
  split at hnext
  · next event rest hchannel =>
    cases hnext
    have hfifo := h.fifo
    have hplaces := h.places
    rw [hw, hchannel] at hfifo hplaces
    refine { h with fifo := ?_, places := ?_, ends := ?_, tracks := ⟨Nat.le_refl 1, by simp [maxBatch]⟩ }
    · simpa [UsageWriter.collected] using hfifo
    · rw [← Multiset.coe_eq_coe] at hplaces ⊢
      simp only [UsageWriter.inHand, ← Multiset.coe_add, ← Multiset.cons_coe, ← Multiset.singleton_add] at hplaces ⊢
      rw [hplaces]
      simp only [Multiset.coe_nil]
      abel
    · intro hended
      cases hended
  · next hchannel =>
    split at hnext
    · next hsenders =>
      cases hnext
      have hfifo := h.fifo
      have hplaces := h.places
      rw [hw] at hfifo hplaces
      exact { h with fifo := hfifo, places := hplaces, ends := fun _ => ⟨hsenders, hchannel⟩, tracks := trivial }
    · cases hnext

theorem fill {batch : List E} (h : p.Kept) (hw : p.writer = .filling batch) : (p.fill batch).Kept := by
  have htracks := h.tracks
  have hfifo := h.fifo
  have hplaces := h.places
  rw [hw] at htracks hfifo hplaces
  have hfull : { p with writer := .writing batch 1, handed := ⟨batch, []⟩ :: p.handed : UsagePipeline E }.Kept := by
    refine { h with fifo := ?_, sizes := ?_, attempts := ?_, places := hplaces, ends := ?_, tracks := ?_ }
    · simpa [UsageWriter.collected] using hfifo
    · exact List.forall_mem_cons.2 ⟨htracks, h.sizes⟩
    · exact List.forall_mem_cons.2 ⟨by simp, h.attempts⟩
    · intro hended
      cases hended
    · exact ⟨[], p.handed, rfl, rfl, by simp [maxWriteAttempts], by simp⟩
  unfold UsagePipeline.fill
  split
  · next hlt =>
    split
    · next event rest hchannel =>
      rw [hchannel] at hfifo hplaces
      refine { h with fifo := ?_, places := ?_, ends := ?_, tracks := ?_ }
      · simpa [UsageWriter.collected] using hfifo
      · rw [← Multiset.coe_eq_coe] at hplaces ⊢
        simp only [UsageWriter.inHand, ← Multiset.coe_add, ← Multiset.cons_coe,
          ← Multiset.singleton_add] at hplaces ⊢
        rw [hplaces]
        simp only [Multiset.coe_nil]
        abel
      · intro hended
        cases hended
      · simp only [UsageWriter.Tracks, List.length_append, List.length_singleton]
        omega
    · exact hfull
  · exact hfull

/-- An attempt that is put on record after failed ones. -/
private theorem attempted_kept {batch : List E} {attempt : Nat} {p : UsagePipeline E} (outcome : WriteOutcome)
    (h : p.Kept) (hw : p.writer = .writing batch attempt) :
    (attempted outcome p.handed).reverse.flatMap HandedBatch.events =
        p.handed.reverse.flatMap HandedBatch.events ∧
      (∀ b ∈ attempted outcome p.handed, 1 ≤ b.events.length ∧ b.events.length ≤ maxBatch) ∧
      (∀ b ∈ attempted outcome p.handed, b.outcomes.length ≤ maxWriteAttempts ∧
        ∀ o ∈ b.outcomes.dropLast, o.isErr = true) ∧
      ∃ outcomes rest, attempted outcome p.handed = ⟨batch, outcomes⟩ :: rest ∧ outcomes.length = attempt ∧
        (outcome.isErr = true → ∀ o ∈ outcomes, o.isErr = true) := by
  have htracks := h.tracks
  rw [hw] at htracks
  obtain ⟨outcomes, rest, hhanded, hlength, hbound, hfailed⟩ := htracks
  have hsizes := h.sizes
  have hattempts := h.attempts
  rw [hhanded] at hsizes hattempts ⊢
  refine ⟨by simp [attempted], ?_, ?_, outcomes ++ [outcome], rest, rfl, by simpa using hlength, ?_⟩
  · exact List.forall_mem_cons.2 ⟨(List.forall_mem_cons.1 hsizes).1, (List.forall_mem_cons.1 hsizes).2⟩
  · refine List.forall_mem_cons.2 ⟨⟨?_, ?_⟩, (List.forall_mem_cons.1 hattempts).2⟩
    · simpa [hlength] using hbound
    · simpa using hfailed
  · intro hErr o ho
    rcases List.mem_append.1 ho with ho | ho
    · exact hfailed o ho
    · rw [List.mem_singleton.1 ho]
      exact hErr

theorem write {batch : List E} {attempt : Nat} {outcome : WriteOutcome} (h : p.Kept)
    (hw : p.writer = .writing batch attempt) (hreturns : outcome ≠ .panicsCalled) :
    (p.write batch attempt outcome).Kept := by
  obtain ⟨hevents, hsizes, hattempts, outcomes, rest, hhanded, hlength, hfailed⟩ :=
    attempted_kept outcome h hw
  have hfifo := h.fifo
  have hplaces := h.places
  rw [hw, ← hevents] at hfifo
  rw [hw] at hplaces
  have hmoves : ∀ {written failed panicked : List E},
      (p.written ++ batch ++ p.failed ++ p.panicked).Perm (written ++ failed ++ panicked) →
      p.recorded.Perm (p.channel ++ [] ++ written ++ p.dropped ++ failed ++ panicked) := by
    intro written failed panicked hmove
    rw [← Multiset.coe_eq_coe] at hplaces hmove ⊢
    simp only [UsageWriter.inHand, ← Multiset.coe_add] at hplaces hmove ⊢
    calc (p.recorded : Multiset E)
        = ↑p.channel + ↑p.dropped + (↑p.written + ↑batch + ↑p.failed + ↑p.panicked) := by rw [hplaces]; abel
      _ = ↑p.channel + ↑p.dropped + (↑written + ↑failed + ↑panicked) := by rw [hmove]
      _ = _ := by simp only [Multiset.coe_nil]; abel
  unfold UsagePipeline.write
  cases outcome with
  | ok =>
    refine { h with
      fifo := hfifo, sizes := hsizes, attempts := hattempts, places := ?_, ends := ?_, tracks := trivial }
    · exact hmoves (List.Perm.refl _)
    · intro hended
      cases hended
  | err message =>
    dsimp only
    split
    · next hlt =>
      refine { h with
        fifo := hfifo, sizes := hsizes, attempts := hattempts, places := hplaces, ends := ?_, tracks := ?_ }
      · intro hended
        cases hended
      · exact ⟨outcomes, rest, hhanded, hlength, hlt, hfailed rfl⟩
    · refine { h with
        fifo := hfifo, sizes := hsizes, attempts := hattempts, places := ?_, counters := ?_, ends := ?_
        tracks := trivial }
      · refine hmoves ?_
        rw [← Multiset.coe_eq_coe]
        simp only [← Multiset.coe_add]
        abel
      · refine ⟨h.counters.1, ?_⟩
        simp [UsageMetrics.incWriteFailed, fetchAdd, h.counters.2]
      · intro hended
        cases hended
  | panicsPolled =>
    refine { h with
      fifo := hfifo, sizes := hsizes, attempts := hattempts, places := ?_, ends := ?_, tracks := trivial }
    · refine hmoves ?_
      rw [← Multiset.coe_eq_coe]
      simp only [← Multiset.coe_add]
      abel
    · intro hended
      cases hended
  | panicsCalled => exact absurd rfl hreturns

theorem wakes {batch : List E} {attempt : Nat} (h : p.Kept) (hw : p.writer = .sleeping batch attempt) :
    { p with writer := .writing batch (attempt + 1) : UsagePipeline E }.Kept := by
  have htracks := h.tracks
  have hfifo := h.fifo
  have hplaces := h.places
  rw [hw] at htracks hfifo hplaces
  obtain ⟨outcomes, rest, hhanded, hlength, hlt, hfailed⟩ := htracks
  refine { h with fifo := hfifo, places := hplaces, ends := ?_, tracks := ?_ }
  · intro hended
    cases hended
  · exact ⟨outcomes, rest, hhanded, congrArg (· + 1) hlength, hlt, hfailed⟩

/-- A pipeline whose writer has ended has no sender left, and one that goes on may get or lose senders. -/
theorem senders {n : Nat} (h : p.Kept) (hn : p.senders = 0 → n = 0) :
    { p with senders := n : UsagePipeline E }.Kept :=
  { h with ends := fun hended => ⟨hn (h.ends hended).1, (h.ends hended).2⟩ }

theorem step {action : UsageAction E} (h : p.Kept) (hstep : p.next action = some p')
    (hreturns : p.ReturnsFuture action) :
    p'.Kept := by
  cases action with
  | record event =>
    simp only [next] at hstep
    split at hstep <;> cases hstep
    exact h.record event
  | clones | drops =>
    simp only [next] at hstep
    split at hstep
    · cases hstep
    · next hsome =>
      cases hstep
      exact h.senders fun hnone => absurd hnone hsome
  | receives =>
    simp only [next] at hstep
    split at hstep
    · next hw => exact h.receive hw hstep
    · cases hstep
  | fills =>
    simp only [next] at hstep
    split at hstep <;> cases hstep
    next hw => exact h.fill hw
  | writes outcome =>
    simp only [next] at hstep
    split at hstep <;> cases hstep
    next hw => exact h.write hw hreturns
  | wakes =>
    simp only [next] at hstep
    split at hstep <;> cases hstep
    next hw => exact h.wakes hw

end Kept

/-- As long as `write_batch` returns a future whenever it is called, the pipeline keeps its promises. -/
theorem conserves_of_futures (h : usagePipelines.ReachableIf ReturnsFuture p) : p.Conserves := by
  have hkept : p.Kept := by
    refine h.invariant (P := Kept) ?_ fun p action p' _ hp hstep hreturns => hp.step hstep hreturns
    rintro p ⟨channelCapacity, rfl⟩
    exact .spawn channelCapacity
  exact hkept.toConserves

/-- A batch that fails once and one whose future panics, written and recovered until the sinks are gone. -/
theorem conserves_of_futures_drained : ∃ p : UsagePipeline Nat, p.Conserves ∧ p.recorded = [1, 2, 3] ∧
    p.written = [1] ∧ p.panicked = [2] ∧ p.dropped = [3] ∧ p.writer.isEnded = true := by
  have hplay : (System.play next ReturnsFuture (spawn 1 : UsagePipeline Nat) [.record 1, .receives, .fills,
      .writes (.err "db down"), .wakes, .record 2, .record 3, .drops, .writes .ok, .receives, .fills,
      .writes .panicsPolled, .receives]).any (fun p => p.recorded = [1, 2, 3] ∧ p.written = [1] ∧ p.panicked = [2] ∧
        p.dropped = [3] ∧ p.writer.isEnded = true) = true := by decide
  obtain ⟨p, hrun, hend⟩ := (Option.any_eq_true _ _).1 hplay
  have hinit : usagePipelines.ReachableIf ReturnsFuture (spawn 1 : UsagePipeline Nat) := .init ⟨1, rfl⟩
  exact ⟨p, conserves_of_futures (hinit.play (fun _ _ _ h => h) hrun), of_decide_eq_true hend⟩

/-- A panic while `write_batch` is called ends the writer: the sink goes on recording into a closed
channel, and what stood in the channel is nowhere. -/
theorem called_panic_ends_writer : ∃ p : UsagePipeline Nat, usagePipelines.Reachable p ∧ ¬ p.Conserves ∧
    p.writer.isEnded = true ∧ p.senders = 1 ∧ p.recorded = [1, 2, 3] ∧ p.panicked = [1] ∧ p.dropped = [3] ∧
    p.channel = [] ∧ p.written = [] ∧ p.failed = [] := by
  have hplay : (System.play next (fun _ _ => True) (spawn 4 : UsagePipeline Nat) [.record 1, .receives, .fills,
      .record 2, .writes .panicsCalled, .record 3]).any (fun p => p.writer.isEnded = true ∧ p.senders = 1 ∧
        p.recorded = [1, 2, 3] ∧ p.panicked = [1] ∧ p.dropped = [3] ∧ p.channel = [] ∧ p.written = [] ∧
        p.failed = []) = true := by decide
  obtain ⟨p, hrun, hend⟩ := (Option.any_eq_true _ _).1 hplay
  have hstate := of_decide_eq_true hend
  have hinit : usagePipelines.Reachable (spawn 4 : UsagePipeline Nat) := .init ⟨4, rfl⟩
  refine ⟨p, hinit.play (fun _ _ _ h => h) hrun, fun hconserves => ?_, hstate⟩
  have hsenders := (hconserves.ends hstate.1).1
  rw [hstate.2.1] at hsenders
  cases hsenders

end UsagePipeline

end Fusions.Ai
