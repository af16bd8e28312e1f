import Fusions.Mq.Acknowledgements

/-! The retry budget of an event. What the reaper returns to the queue is not counted, so the budget bounds
the deliveries only where the reaper returns nothing. -/
namespace Fusions.Mq
open Fusions.Library

/-- The budget that an event is published with. -/
def PublishEvent.budget (event : PublishEvent) : Nat := event.maxRetries.getD 3

namespace EventQueue
variable {s s' : EventQueue} {action : QueueAction} {row row' : EventRow} {claim : OpenClaim} {id : EventId}

/-- How often claims returned an event. -/
def delivered (s : EventQueue) (id : EventId) : Nat := s.deliveries.countP (·.event = id)

/-- Events are published with a budget that the column can hold, and the reaper puts no row back. -/
def Budgeted (s : EventQueue) : QueueAction → Prop
  | .publishes _ event _ => 1 ≤ event.budget ∧ event.budget < 2 ^ 31
  | .reaps targetService stuckAfter now =>
    ∀ row ∈ s.rows, row.isZombie targetService stuckAfter now = true → row.maxRetries ≤ row.retryCount
  | _ => True

instance : (s : EventQueue) → (action : QueueAction) → Decidable (s.Budgeted action)
  | _, .publishes _ event _ => inferInstanceAs (Decidable (1 ≤ event.budget ∧ event.budget < 2 ^ 31))
  | s, .reaps targetService stuckAfter now => inferInstanceAs (Decidable
      (∀ row ∈ s.rows, row.isZombie targetService stuckAfter now = true → row.maxRetries ≤ row.retryCount))
  | _, .ticks _ | _, .begins _ _ _ | _, .selects _ _ | _, .locks _ | _, .commits _ | _, .rollsBack _
  | _, .acknowledges _ _ _ | _, .crashes _ => .isTrue trivial

/-- Only a commit delivers, each row that it holds locked once. -/
private theorem delivered_commit (hlocks : s.Locks) (hclaim : claim ∈ s.claims) (id : EventId) :
    (s.commit claim).delivered id = s.delivered id + if id ∈ claim.locked.map EventRow.id then 1 else 0 := by
  have hnodup : (claim.locked.reverse.map EventRow.id).Nodup := by
    rw [List.map_reverse]
    exact List.nodup_reverse.2 (hlocks.nodup claim hclaim)
  have hcount : (claim.locked.reverse.map EventRow.id).countP (fun event => decide (event = id)) =
      if id ∈ claim.locked.map EventRow.id then 1 else 0 := by
    have hone := hnodup.count (a := id)
    simpa only [List.count, beq_eq_decide, List.map_reverse, List.mem_reverse] using hone
  rw [delivered, commit]
  dsimp only
  rw [List.countP_append, List.countP_map, Nat.add_comm, ← hcount]
  rfl

private theorem delivered_next (hlocks : s.Locks) (h : s.next action = some s') (id : EventId) :
    (∃ claim ∈ s.claims, action = .commits claim ∧ id ∈ claim.locked.map EventRow.id ∧
      s'.delivered id = s.delivered id + 1) ∨
    s'.delivered id = s.delivered id ∧ ∀ claim, action = .commits claim → id ∉ claim.locked.map EventRow.id := by
  rcases deliveries_of_next h with ⟨claim, hclaim, rfl, rfl⟩ | ⟨hother, f, hdeliveries, hevent⟩
  · have hcount := delivered_commit hlocks hclaim id
    by_cases hid : id ∈ claim.locked.map EventRow.id
    · exact .inl ⟨claim, hclaim, rfl, hid, by rw [hcount, if_pos hid]⟩
    · refine .inr ⟨by rw [hcount, if_neg hid, Nat.add_zero], fun claim' haction => ?_⟩
      cases haction
      exact hid
  · refine .inr ⟨?_, fun claim haction => absurd haction (hother claim)⟩
    rw [delivered, delivered, hdeliveries, List.countP_map]
    refine List.countP_congr fun d _ => ?_
    simp [hevent]

private theorem Moves.maxRetries_eq (h : s.Moves action row row') : row'.maxRetries = row.maxRetries := by
  cases h <;> rfl

/-- What the deliveries of a row leave of its budget. -/
structure Accounted (row : EventRow) (n : Nat) : Prop where
  pending : row.status = .pending → n ≤ row.retryCount ∧ row.retryCount < row.maxRetries
  counted : n ≤ row.retryCount + 1
  budget : n ≤ row.maxRetries

/-- The rows of the published events, each within its budget. -/
structure WithinBudget (s : EventQueue) : Prop where
  published : ∀ p ∈ s.publications, ∃ row ∈ s.rows, row.id = p.1 ∧ row.maxRetries = p.2.budget
  known : ∀ d ∈ s.deliveries, ∃ row ∈ s.rows, row.id = d.event
  rows : ∀ row ∈ s.rows, Accounted row (s.delivered row.id)

namespace WithinBudget

private theorem accounted_next (h : s.WithinBudget) (hlocks : s.Locks) (hnext : s.next action = some s')
    (hbudgeted : s.Budgeted action) (hrow : row' ∈ s'.rows) : Accounted row' (s'.delivered row'.id) := by
  rcases mem_of_moves hnext hrow with ⟨id, event, now, rfl, hfresh, rfl⟩ | ⟨row, hmem, hmove⟩
  · have hnone : s'.delivered id = 0 := by
      rcases delivered_next hlocks hnext id with ⟨claim, -, haction, -⟩ | ⟨hsame, -⟩
      · cases haction
      · rw [hsame]
        refine List.countP_eq_zero.2 fun d hd hid => ?_
        obtain ⟨row, hrow, hevent⟩ := h.known d hd
        exact hfresh row hrow (hevent.trans (of_decide_eq_true hid))
    have hbudget : asI32 (event.maxRetries.getD 3) = event.budget := asI32_of_lt hbudgeted.2
    have hpos := hbudgeted.1
    simp only [EventRow.published, hnone, hbudget]
    refine ⟨fun _ => ⟨?_, ?_⟩, ?_, ?_⟩ <;> dsimp only <;> omega
  · rw [hmove.id_eq]
    have hbefore := h.rows row hmem
    rcases delivered_next hlocks hnext row.id with ⟨claim, hclaim, rfl, hid, hcount⟩ | ⟨hcount, hother⟩
    · rw [hcount]
      cases hmove with
      | same hspares => exact absurd hid hspares
      | claimed _ _ =>
        obtain ⟨own, hown, hid'⟩ := List.mem_map.1 hid
        obtain ⟨hownmem, hclaimable⟩ := hlocks.held claim hclaim own hown
        obtain rfl := hlocks.row_unique hmem hownmem hid'.symm
        obtain ⟨-, hpending, -⟩ := pending_of_claimable hclaimable
        obtain ⟨hle, hlt⟩ := hbefore.pending hpending
        refine ⟨fun hstatus => ?_, ?_, ?_⟩
        · cases hstatus
        · simp only [EventRow.claimed]
          omega
        · simp only [EventRow.claimed]
          omega
    · rw [hcount]
      cases hmove with
      | same _ => exact hbefore
      | claimed _ hid => exact absurd hid (hother _ rfl)
      | processed _ _ _ =>
        refine ⟨fun hstatus => ?_, hbefore.counted, hbefore.budget⟩
        cases hstatus
      | failed _ _ _ _ =>
        have hcounted := hbefore.counted
        refine ⟨fun hstatus => ?_, ?_, hbefore.budget⟩
        · simp only [EventRow.failed] at hstatus ⊢
          split at hstatus
          · cases hstatus
          · omega
        · simp only [EventRow.failed]
          omega
      | reaped _ hzombie =>
        have hspent := hbudgeted row hmem hzombie
        refine ⟨fun hstatus => ?_, hbefore.counted, hbefore.budget⟩
        simp only [EventRow.reaped, if_pos hspent] at hstatus
        cases hstatus

theorem next (h : s.WithinBudget) (hlocks : s.Locks) (hnext : s.next action = some s')
    (hbudgeted : s.Budgeted action) :
    s'.WithinBudget := by
  have hkept : ∀ {id : EventId} {n : Int}, (∃ row ∈ s.rows, row.id = id ∧ row.maxRetries = n) →
      ∃ row ∈ s'.rows, row.id = id ∧ row.maxRetries = n := by
    rintro id n ⟨row, hrow, hid, hmax⟩
    obtain ⟨row', hrow', hmove⟩ := moves_of_mem hnext hrow
    exact ⟨row', hrow', hmove.id_eq.trans hid, (Moves.maxRetries_eq hmove).trans hmax⟩
  refine ⟨?_, ?_, fun row hrow => h.accounted_next hlocks hnext hbudgeted hrow⟩
  · rcases rows_of_next hnext with ⟨id, event, now, rfl, -, hrows, hpublications⟩ | ⟨hpublications, -⟩
    · rw [hpublications, hrows]
      have hbudget : (EventRow.published id event now).maxRetries = event.budget := by
        dsimp only [EventRow.published]
        rw [← PublishEvent.budget, asI32_of_lt hbudgeted.2]
      refine List.forall_mem_cons.2 ⟨⟨_, List.mem_cons_self .., rfl, hbudget⟩, fun p hp => ?_⟩
      obtain ⟨row, hrow, hid, hmax⟩ := h.published p hp
      exact ⟨row, List.mem_cons_of_mem _ hrow, hid, hmax⟩
    · rw [hpublications]
      exact fun p hp => hkept (h.published p hp)
  · intro d' hd'
    rcases deliveries_of_next hnext with ⟨claim, hclaim, rfl, rfl⟩ | ⟨-, f, hdeliveries, hevent⟩
    · rcases List.mem_append.1 hd' with hd' | hd'
      · obtain ⟨id, hid, rfl⟩ := List.mem_map.1 hd'
        obtain ⟨own, hown, rfl⟩ := List.mem_map.1 hid
        obtain ⟨row', hrow', hid', -⟩ :=
          hkept ⟨own, (hlocks.held claim hclaim own (List.mem_reverse.1 hown)).1, rfl, rfl⟩
        exact ⟨row', hrow', hid'⟩
      · obtain ⟨row, hrow, hid⟩ := h.known d' hd'
        obtain ⟨row', hrow', hid', -⟩ := hkept ⟨row, hrow, hid, rfl⟩
        exact ⟨row', hrow', hid'⟩
    · rw [hdeliveries] at hd'
      obtain ⟨d, hd, rfl⟩ := List.mem_map.1 hd'
      obtain ⟨row, hrow, hid⟩ := h.known d hd
      obtain ⟨row', hrow', hid', -⟩ := hkept ⟨row, hrow, hid, rfl⟩
      exact ⟨row', hrow', hid'.trans (hevent d).symm⟩

end WithinBudget

theorem withinBudget_of_reachable (h : eventQueues.ReachableIf Budgeted s) : s.WithinBudget := by
  refine h.invariant (P := WithinBudget) ?_ fun s action s' hs hbudget hstep hok =>
    hbudget.next (locks_of_reachable hs) hstep hok
  rintro s ⟨hrows, -, hpublications, hdeliveries, -⟩
  constructor <;> simp [hrows, hpublications, hdeliveries]

/-- Once a row is old enough, the reaper ends it or makes it claimable. -/
theorem exists_reaped (hrow : row ∈ s.rows) (hprocessing : row.status = .processing) (stuckAfter : Duration) :
    ∃ clock t s', s.next (.ticks clock) = some t ∧ t.next (.reaps row.targetService stuckAfter clock) = some s' ∧
      ∃ row' ∈ s'.rows, row'.id = row.id ∧
        (row'.status.isTerminal = true ∨ row'.isClaimable row.targetService = true) := by
  let clock := max s.clock (row.updatedAt + makeInterval (asI32 stuckAfter.secs) + 1)
  have hold : row.isZombie row.targetService stuckAfter clock = true := by
    have hclock : row.updatedAt + makeInterval (asI32 stuckAfter.secs) + 1 ≤ clock := Int.le_max_right ..
    simp only [EventRow.isZombie, hprocessing, decide_true, Bool.true_and, decide_eq_true_eq]
    omega
  refine ⟨clock, _, _, if_pos (Int.le_max_left ..), if_pos (Int.le_refl _), row.reaped clock,
    List.mem_map.2 ⟨row, hrow, if_pos hold⟩, rfl, ?_⟩
  by_cases hspent : row.maxRetries ≤ row.retryCount
  · exact .inl (by simp [EventRow.reaped, hspent, EventStatus.isTerminal])
  · have hleft : row.retryCount < row.maxRetries := Int.not_le.1 hspent
    exact .inr (by simp [EventRow.isClaimable, EventRow.reaped, hleft])

/-- In a run that publishes events with budgets from 1 to 2147483647, and whose reaper puts no row back, a
pending row can be claimed, a processing one can be freed by the reaper, and no event is delivered more often
than its budget allows. -/
theorem deliveries_within_budget (h : eventQueues.ReachableIf Budgeted s) :
    (∀ row ∈ s.rows, row.status = .pending → row.retryCount < row.maxRetries) ∧
    (∀ row ∈ s.rows, row.status = .processing → ∀ stuckAfter : Duration, ∃ clock t s',
      s.next (.ticks clock) = some t ∧ t.next (.reaps row.targetService stuckAfter clock) = some s' ∧
        ∃ row' ∈ s'.rows, row'.id = row.id ∧
          (row'.status.isTerminal = true ∨ row'.isClaimable row.targetService = true)) ∧
    ∀ p ∈ s.publications, s.delivered p.1 ≤ max p.2.budget 1 := by
  have hbudget := withinBudget_of_reachable h
  refine ⟨fun row hrow hpending => ((hbudget.rows row hrow).pending hpending).2,
    fun row hrow hprocessing => exists_reaped hrow hprocessing, fun p hp => ?_⟩
  obtain ⟨row, hrow, hid, hmax⟩ := hbudget.published p hp
  have hle := (hbudget.rows row hrow).budget
  rw [hid, hmax] at hle
  omega

/-- An event that fails twice with a budget of two. -/
theorem deliveries_within_budget_spent : ∃ s : EventQueue, s.delivered 7 = 2 ∧
    s.publications = [(7, orderPaid (some 2))] ∧
    ((∀ row ∈ s.rows, row.status = .pending → row.retryCount < row.maxRetries) ∧
    (∀ row ∈ s.rows, row.status = .processing → ∀ stuckAfter : Duration, ∃ clock t s',
      s.next (.ticks clock) = some t ∧ t.next (.reaps row.targetService stuckAfter clock) = some s' ∧
        ∃ row' ∈ s'.rows, row'.id = row.id ∧
          (row'.status.isTerminal = true ∨ row'.isClaimable row.targetService = true)) ∧
    ∀ p ∈ s.publications, s.delivered p.1 ≤ max p.2.budget 1) := by
  let placed : EventRow := .published 7 (orderPaid (some 2)) 0
  let returned : EventRow := (placed.claimed 0).failed "declined" .retry 0
  have hplay : (System.play next Budgeted empty ([.publishes 7 (orderPaid (some 2)) 0] ++ claimOne 0 1 0 placed ++
      [.acknowledges ⟨0, 1, 7, 0, false, false⟩ (.failed "declined" .retry) 0] ++ claimOne 1 1 0 returned ++
      [.acknowledges ⟨1, 1, 7, 0, false, false⟩ (.failed "declined" .retry) 0])).any
        (fun s => s.delivered 7 = 2 ∧ s.publications = [(7, orderPaid (some 2))]) = true := by decide +kernel
  obtain ⟨s, hrun, hend⟩ := (Option.any_eq_true _ _).1 hplay
  have hstate := of_decide_eq_true hend
  exact ⟨s, hstate.1, hstate.2, deliveries_within_budget (empty_reachable.play (fun _ _ _ h => h) hrun)⟩

/-- A budget of one is delivered twice when the reaper comes between, and an event with a budget of zero, or
with one that the column cannot hold, is pending and never claimable. -/
theorem reaped_exceeds_budget :
    (∃ s : EventQueue, eventQueues.Reachable s ∧ s.publications = [(7, orderPaid (some 1))] ∧ s.delivered 7 = 2) ∧
    (∃ s : EventQueue, eventQueues.Reachable s ∧ s.publications = [(7, orderPaid (some 0))] ∧
      ∃ row ∈ s.rows, row.status = .pending ∧ row.maxRetries ≤ row.retryCount) ∧
    ∃ s : EventQueue, eventQueues.Reachable s ∧ s.publications = [(7, orderPaid (some 4294967295))] ∧
      ∃ row ∈ s.rows, row.status = .pending ∧ row.maxRetries ≤ row.retryCount := by
  let placed : EventRow := .published 7 (orderPaid (some 1)) 0
  let returned : EventRow := (placed.claimed 0).reaped 1
  have hplay : (System.play next (fun _ _ => True) empty ([.publishes 7 (orderPaid (some 1)) 0] ++
      claimOne 0 1 0 placed ++
      [.ticks 1, .reaps "billing" ⟨0, 0, by decide, by decide⟩ 1] ++ claimOne 1 2 1 returned)).any
        (fun s => s.publications = [(7, orderPaid (some 1))] ∧ s.delivered 7 = 2) = true := by decide +kernel
  obtain ⟨s, hrun, hend⟩ := (Option.any_eq_true _ _).1 hplay
  have hreached := empty_reachable.play (fun _ _ _ h => h) hrun
  have hstep : ∀ event, empty.next (.publishes 7 event 0) =
      some { empty with rows := [.published 7 event 0], publications := [(7, event)] } := fun _ => rfl
  refine ⟨⟨s, hreached, of_decide_eq_true hend⟩, ⟨_, empty_reachable.step (hstep _) trivial, rfl, ?_⟩,
    ⟨_, empty_reachable.step (hstep _) trivial, rfl, ?_⟩⟩
  · exact ⟨_, List.mem_singleton_self _, rfl, by decide⟩
  · exact ⟨_, List.mem_singleton_self _, rfl, by decide⟩

end EventQueue
end Fusions.Mq
