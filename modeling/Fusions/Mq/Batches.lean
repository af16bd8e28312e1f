import Mathlib.Data.List.Find
import Fusions.Mq.Locks

/-! The order of the events that a claim returns. -/
namespace Fusions.Mq
open Fusions.Library

namespace EventQueue
variable {s s' : EventQueue} {action : QueueAction} {row row' : EventRow} {claim : OpenClaim} {id : EventId}

/-- When an event was created. -/
def createdAt? (s : EventQueue) (id : EventId) : Option Int := (s.row? id).map EventRow.createdAt

private theorem Moves.createdAt_eq (h : s.Moves action row row') : row'.createdAt = row.createdAt := by
  cases h <;> rfl

/-- No step changes when an event was created. -/
private theorem createdAt?_next (h : s.next action = some s') (hknown : ∃ row ∈ s.rows, row.id = id) :
    s'.createdAt? id = s.createdAt? id := by
  obtain ⟨known, hmem, hid⟩ := hknown
  rcases rows_of_next h with ⟨new, event, now, -, hfresh, hrows, -⟩ | ⟨-, f, hrows, hmoves⟩
  · have hne : new ≠ id := fun heq => hfresh known hmem (hid.trans heq.symm)
    rw [createdAt?, row?, hrows, List.find?_cons_of_neg (by simp [EventRow.published, hne])]
    rfl
  · have hfind : s.rows.find? ((fun row => decide (row.id = id)) ∘ f) = s.rows.find? fun row => row.id = id := by
      refine List.find?_congr fun row hrow => ?_
      simp [(hmoves row hrow).id_eq]
    rw [createdAt?, row?, hrows, List.find?_map, hfind, createdAt?, row?, Option.map_map]
    cases hfound : s.rows.find? fun row => row.id = id with
    | none => rfl
    | some row =>
      have hrow := List.mem_of_find?_eq_some hfound
      simp [(hmoves row hrow).createdAt_eq]

/-- What a claim holds and what it has yet to look at, in the order of creation. -/
structure InOrder (s : EventQueue) (claim : OpenClaim) : Prop where
  unselected : claim.selected = none → claim.locked = []
  known : ∀ rest, claim.selected = some rest → ∀ id ∈ rest, ∃ row ∈ s.rows, row.id = id
  sorted : ∀ rest, claim.selected = some rest →
    (claim.locked.reverse.map EventRow.createdAt ++ rest.filterMap s.createdAt?).Pairwise (· ≤ ·)

namespace InOrder

theorem next (h : s.InOrder claim) (hnext : s.next action = some s') : s'.InOrder claim := by
  refine ⟨h.unselected, fun rest hrest id hid => ?_, fun rest hrest => ?_⟩
  · obtain ⟨row, hrow, hrowid⟩ := h.known rest hrest id hid
    obtain ⟨row', hrow', hmove⟩ := moves_of_mem hnext hrow
    exact ⟨row', hrow', hmove.id_eq.trans hrowid⟩
  · have hsame : rest.filterMap s'.createdAt? = rest.filterMap s.createdAt? :=
      List.filterMap_congr fun id hid => createdAt?_next hnext (h.known rest hrest id hid)
    rw [hsame]
    exact h.sorted rest hrest

/-- A selection is in order. -/
theorem select (h : s.InOrder claim) (hnone : claim.selected = none) {found : List EventId}
    (hfound : s.isSelection claim.targetService found = true) :
    s.InOrder { claim with selected := some found } := by
  simp only [isSelection, Bool.and_eq_true, decide_eq_true_eq, List.isPerm_iff] at hfound
  refine ⟨by simp, fun rest hrest id hid => ?_, fun rest hrest => ?_⟩
  · cases hrest
    obtain ⟨row, hrow, hrowid⟩ := List.mem_map.1 (hfound.1.subset hid)
    exact ⟨row, (List.mem_filter.1 hrow).1, hrowid⟩
  · cases hrest
    have hmap : found.filterMap s.createdAt? = (found.filterMap s.row?).map EventRow.createdAt := by
      rw [List.map_filterMap]
      rfl
    rw [h.unselected hnone, hmap]
    exact List.pairwise_map.2 hfound.2

/-- A lock moves the next row of the selection, or drops it. -/
theorem lock {claim' : OpenClaim} (h : s.InOrder claim)
    (hlock : s.lockNext claim = some claim') : s.InOrder claim' := by
  unfold lockNext at hlock
  split at hlock
  · next id rest hselected =>
    have hknown := h.known _ hselected
    have hsorted := h.sorted _ hselected
    have hdrop : s.InOrder { claim with selected := some rest } := by
      refine ⟨by simp, fun rest' hrest' => ?_, fun rest' hrest' => ?_⟩
      · cases hrest'
        exact fun id' hid' => hknown id' (List.mem_cons_of_mem _ hid')
      · cases hrest'
        exact hsorted.sublist ((List.Sublist.refl _).append ((List.sublist_cons_self id rest).filterMap _))
    split at hlock
    · split at hlock
      · next row hrow =>
        cases hlock
        obtain ⟨hfound, -⟩ := Option.filter_eq_some_iff.1 hrow
        refine ⟨by simp, hdrop.known, fun rest' hrest' => ?_⟩
        cases hrest'
        have hcreated : s.createdAt? id = some row.createdAt := by rw [createdAt?, hfound, Option.map_some]
        rw [List.filterMap_cons_some hcreated] at hsorted
        simpa using hsorted
      · cases hlock
        exact hdrop
    · cases hlock
  · cases hlock

end InOrder

/-- Claims in order, and batches in order. -/
structure Ordered (s : EventQueue) : Prop where
  claims : ∀ claim ∈ s.claims, s.InOrder claim
  batches : ∀ batch ∈ s.batches, batch.Pairwise fun event event' => event.createdAt ≤ event'.createdAt

theorem Ordered.next (h : s.Ordered) (hnext : s.next action = some s') : s'.Ordered := by
  have hclaims : ∀ claim ∈ s.claims, s'.InOrder claim := fun claim hclaim => (h.claims claim hclaim).next hnext
  have hput : ∀ {claim claim' : OpenClaim}, s'.InOrder claim' → s'.claims = claim' :: s.claims.erase claim →
      ∀ c ∈ s'.claims, s'.InOrder c := by
    intro claim claim' hclaim' heq c hc
    rw [heq] at hc
    rcases List.mem_cons.1 hc with rfl | hc
    · exact hclaim'
    · exact hclaims c (List.mem_of_mem_erase hc)
  cases action with
  | begins worker targetService batchSize =>
    simp only [EventQueue.next] at hnext
    split at hnext <;> cases hnext
    exact ⟨List.forall_mem_cons.2 ⟨⟨fun _ => rfl, by simp, by simp⟩, hclaims⟩, h.batches⟩
  | selects claim found =>
    have hnext' := hnext
    simp only [EventQueue.next] at hnext
    split at hnext <;> cases hnext
    next hselects =>
    have hselected := (h.claims claim hselects.1).select hselects.2.1 hselects.2.2
    exact ⟨hput (hselected.next hnext') rfl, h.batches⟩
  | locks claim =>
    have hnext' := hnext
    simp only [EventQueue.next] at hnext
    split at hnext
    · next hclaim =>
      obtain ⟨claim', hlock, rfl⟩ := Option.map_eq_some_iff.1 hnext
      exact ⟨hput (((h.claims claim hclaim).lock hlock).next hnext') rfl, h.batches⟩
    · cases hnext
  | commits claim =>
    simp only [EventQueue.next] at hnext
    split at hnext <;> cases hnext
    next hcommits =>
    refine ⟨fun c hc => hclaims c (List.mem_of_mem_erase hc), List.forall_mem_cons.2 ⟨?_, h.batches⟩⟩
    cases hselected : claim.selected with
    | none => simp [isComplete, hselected] at hcommits
    | some rest =>
      have hsorted := (List.pairwise_append.1 ((h.claims claim hcommits.1).sorted rest hselected)).1
      exact List.pairwise_map.2 (List.pairwise_map.1 hsorted)
  | rollsBack claim =>
    simp only [EventQueue.next] at hnext
    split at hnext <;> cases hnext
    exact ⟨fun c hc => hclaims c (List.mem_of_mem_erase hc), h.batches⟩
  | crashes worker =>
    cases hnext
    exact ⟨fun c hc => hclaims c (List.mem_filter.1 hc).1, h.batches⟩
  | acknowledges delivery ack now =>
    simp only [EventQueue.next] at hnext
    split at hnext <;> cases hnext
    rcases s.acknowledge_cases delivery ack now with ⟨heq, -⟩ | ⟨heq, -⟩
    · rw [heq]
      exact h
    · rw [heq] at hclaims ⊢
      exact ⟨hclaims, h.batches⟩
  | ticks | publishes | reaps =>
    simp only [EventQueue.next] at hnext
    split at hnext <;> cases hnext
    exact ⟨hclaims, h.batches⟩

theorem ordered_of_reachable {ok : EventQueue → QueueAction → Prop}
    (h : eventQueues.ReachableIf ok s) : s.Ordered := by
  refine h.invariant (P := Ordered) ?_ fun s action s' _ hs hstep _ => hs.next hstep
  rintro s ⟨-, hclaims, -, -, hbatches⟩
  constructor <;> simp [hclaims, hbatches]

end EventQueue
end Fusions.Mq
