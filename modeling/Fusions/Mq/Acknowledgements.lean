import Mathlib.Data.List.Pairwise
import Fusions.Mq.Locks

/-! Acknowledgements that name their row while the claim behind them still stands. Such an acknowledgement
moves a row from processing, and terminal rows stay as they are. -/
namespace Fusions.Mq
open Fusions.Library

/-- Its worker has yet to acknowledge it, and the reaper has not taken it back. -/
def Delivery.isLive (delivery : Delivery) : Bool := !delivery.acknowledged && !delivery.reaped

namespace EventQueue
variable {s s' : EventQueue} {action : QueueAction} {row row' : EventRow} {claim : OpenClaim} {delivery : Delivery}

/-- No delivery is acknowledged twice, or after the reaper has taken its row back. -/
def InTime (_ : EventQueue) : QueueAction → Prop
  | .acknowledges delivery _ _ => delivery.isLive = true
  | _ => True

instance : (s : EventQueue) → (action : QueueAction) → Decidable (s.InTime action)
  | _, .acknowledges delivery _ _ => inferInstanceAs (Decidable (delivery.isLive = true))
  | _, .ticks _ | _, .publishes _ _ _ | _, .begins _ _ _ | _, .selects _ _ | _, .locks _ | _, .commits _
  | _, .rollsBack _ | _, .reaps _ _ _ | _, .crashes _ => .isTrue trivial

theorem Locks.row_unique (h : s.Locks) (hrow : row ∈ s.rows) (hrow' : row' ∈ s.rows) (hid : row.id = row'.id) :
    row = row' := List.inj_on_of_nodup_map h.ids hrow hrow' hid

/-- The row of a live delivery is processing, and no claim got the event since. -/
structure Owned (s : EventQueue) : Prop where
  processing : ∀ d ∈ s.deliveries, d.isLive = true → ∃ row ∈ s.rows, row.id = d.event ∧ row.status = .processing
  latest : s.deliveries.Pairwise fun later d => d.isLive = true → later.event ≠ d.event

namespace Owned

theorem unique (h : s.Owned) {d d' : Delivery} (hd : d ∈ s.deliveries) (hd' : d' ∈ s.deliveries)
    (hlive : d.isLive = true) (hlive' : d'.isLive = true) (hevent : d.event = d'.event) : d = d' := by
  by_contra hne
  have hapart : s.deliveries.Pairwise fun d d' => d.isLive = true → d'.isLive = true → d.event ≠ d'.event := by
    refine h.latest.imp ?_
    intro later d hlater _
    exact hlater
  have hsymm : Std.Symm fun d d' : Delivery => d.isLive = true → d'.isLive = true → d.event ≠ d'.event :=
    ⟨fun _ _ hne hlive hlive' => (hne hlive' hlive).symm⟩
  exact hapart.forall hd hd' hne hlive hlive' hevent

/-- Deliveries that a step may flag, and rows that it keeps processing. -/
private theorem of_map (h : s.Owned) {f : Delivery → Delivery} (hdeliveries : s'.deliveries = s.deliveries.map f)
    (hevent : ∀ d, (f d).event = d.event) (hlive : ∀ d, (f d).isLive = true → d.isLive = true)
    (hrows : ∀ d ∈ s.deliveries, (f d).isLive = true → ∀ row ∈ s.rows, row.id = d.event → row.status = .processing →
      row ∈ s'.rows) : s'.Owned := by
  constructor
  · intro d' hd' hlived
    rw [hdeliveries] at hd'
    obtain ⟨d, hd, rfl⟩ := List.mem_map.1 hd'
    obtain ⟨row, hrow, hid, hprocessing⟩ := h.processing d hd (hlive d hlived)
    exact ⟨row, hrows d hd hlived row hrow hid hprocessing, hid.trans (hevent d).symm, hprocessing⟩
  · rw [hdeliveries, List.pairwise_map]
    refine h.latest.imp fun hapart hlived => ?_
    rw [hevent, hevent]
    exact hapart (hlive _ hlived)

private theorem commit (h : s.Owned) (hlocks : s.Locks) (hclaim : claim ∈ s.claims) : (s.commit claim).Owned := by
  have hpending : ∀ row ∈ claim.locked, row ∈ s.rows ∧ row.status = .pending := fun row hrow =>
    ⟨(hlocks.held claim hclaim row hrow).1, (pending_of_claimable (hlocks.held claim hclaim row hrow).2).2.1⟩
  have hfree : ∀ d ∈ s.deliveries, d.isLive = true → d.event ∉ claim.locked.map EventRow.id := by
    intro d hd hlive hlocked
    obtain ⟨row, hrow, hid, hprocessing⟩ := h.processing d hd hlive
    obtain ⟨row', hrow', hid'⟩ := List.mem_map.1 hlocked
    have heq := hlocks.row_unique hrow (hpending row' hrow').1 (hid.trans hid'.symm)
    rw [heq, (hpending row' hrow').2] at hprocessing
    cases hprocessing
  constructor
  · intro d hd hlive
    rcases List.mem_append.1 hd with hd | hd
    · obtain ⟨id, hid, rfl⟩ := List.mem_map.1 hd
      obtain ⟨row, hrow, rfl⟩ := List.mem_map.1 hid
      refine ⟨row.claimed claim.now, List.mem_map.2 ⟨row, (hpending row (List.mem_reverse.1 hrow)).1, ?_⟩, rfl, rfl⟩
      exact if_pos (List.contains_iff_mem.2 hid)
    · obtain ⟨row, hrow, hid, hprocessing⟩ := h.processing d hd hlive
      refine ⟨row, List.mem_map.2 ⟨row, hrow, if_neg fun hcontains => ?_⟩, hid, hprocessing⟩
      refine hfree d hd hlive (hid ▸ ?_)
      simpa using hcontains
  · refine List.pairwise_append.2 ⟨?_, h.latest, fun d hd d' hd' hlive heq => hfree d' hd' hlive ?_⟩
    · refine List.pairwise_map.2 ?_
      have hnodup := (List.nodup_reverse.2 (hlocks.nodup claim hclaim))
      rw [← List.map_reverse] at hnodup
      refine hnodup.imp ?_
      intro later d hne _
      exact hne
    · obtain ⟨id, hid, rfl⟩ := List.mem_map.1 hd
      rw [← heq]
      simpa using hid

private theorem acknowledge (h : s.Owned) (hd : delivery ∈ s.deliveries) (hlive : delivery.isLive = true)
    (ack : Acknowledgement) (now : Int) (hmoves : ∀ row ∈ s.rows, row.id ≠ delivery.event →
      row ∈ (s.acknowledge delivery ack now).rows) : (s.acknowledge delivery ack now).Owned := by
  rcases s.acknowledge_cases delivery ack now with ⟨heq, -⟩ | ⟨heq, -⟩
  · rw [heq]
    exact h
  · refine h.of_map (congrArg deliveries heq) (fun d => ?_) (fun d => ?_)
      fun d hd' hlived row hrow hid _ => hmoves row hrow fun hevent => ?_
    · split <;> rfl
    · split
      · simp [Delivery.isLive]
      · exact id
    · split at hlived
      · cases hlived
      · next hother => exact hother (h.unique hd' hd hlived hlive (hid.symm.trans hevent))

theorem next (h : s.Owned) (hlocks : s.Locks) (hnext : s.next action = some s')
    (htime : s.InTime action) : s'.Owned := by
  have hsame : ∀ {t : EventQueue}, t.deliveries = s.deliveries → (∀ row ∈ s.rows, row ∈ t.rows) → t.Owned := by
    intro t hdeliveries hrows
    exact h.of_map (f := id) (by rw [hdeliveries, List.map_id]) (fun _ => rfl) (fun _ => id)
      fun _ _ _ row hrow _ _ => hrows row hrow
  have hstays : (∀ row row', s.Moves action row row' → row' = row) → ∀ row ∈ s.rows, row ∈ s'.rows := by
    intro hmoves row hrow
    obtain ⟨row', hrow', hmove⟩ := moves_of_mem hnext hrow
    rwa [hmoves row row' hmove] at hrow'
  cases action with
  | commits claim =>
    simp only [EventQueue.next] at hnext
    split at hnext <;> cases hnext
    next hcommits => exact h.commit hlocks hcommits.1
  | acknowledges delivery ack now =>
    have hothers : ∀ row ∈ s.rows, row.id ≠ delivery.event → row ∈ s'.rows := by
      intro row hrow hne
      obtain ⟨row', hrow', hmove⟩ := moves_of_mem hnext hrow
      cases hmove with
      | same => exact hrow'
      | processed _ hid => exact absurd hid hne
      | failed _ hid => exact absurd hid hne
    simp only [EventQueue.next] at hnext
    split at hnext <;> cases hnext
    next hack => exact h.acknowledge hack.2.1 htime ack now hothers
  | reaps targetService stuckAfter now =>
    have hkept : ∀ row ∈ s.rows, row.isZombie targetService stuckAfter now = false → row ∈ s'.rows := by
      intro row hrow hyoung
      obtain ⟨row', hrow', hmove⟩ := moves_of_mem hnext hrow
      cases hmove with
      | same => exact hrow'
      | reaped _ hzombie =>
        rw [hyoung] at hzombie
        cases hzombie
    simp only [EventQueue.next] at hnext
    split at hnext <;> cases hnext
    refine h.of_map rfl (fun d => ?_) (fun d => ?_) fun d hd hlived row hrow hid _ => hkept row hrow ?_
    · split <;> rfl
    · split
      · simp [Delivery.isLive]
      · exact id
    · split at hlived
      · simp [Delivery.isLive] at hlived
      · next hspared =>
        by_contra hzombie
        exact hspared (List.any_eq_true.2 ⟨row, hrow, by simpa [hid] using hzombie⟩)
  | locks claim =>
    have hrows := hstays fun row row' hmove => by cases hmove; rfl
    simp only [EventQueue.next] at hnext
    split at hnext
    · obtain ⟨claim', -, rfl⟩ := Option.map_eq_some_iff.1 hnext
      exact hsame rfl hrows
    · cases hnext
  | crashes worker =>
    have hrows := hstays fun row row' hmove => by cases hmove; rfl
    cases hnext
    exact hsame rfl hrows
  | ticks | publishes | begins | selects | rollsBack =>
    have hrows := hstays fun row row' hmove => by cases hmove; rfl
    simp only [EventQueue.next] at hnext
    split at hnext <;> cases hnext
    exact hsame rfl hrows

end Owned

theorem owned_of_reachable (h : eventQueues.ReachableIf InTime s) : s.Owned := by
  refine h.invariant (P := Owned) ?_ fun s action s' hs howned hstep htime => howned.next (locks_of_reachable hs) hstep htime
  rintro s ⟨-, -, -, hdeliveries, -⟩
  constructor <;> simp [hdeliveries]

/-- A live delivery is the last one of its event. -/
theorem Owned.last (h : s.Owned) (hd : delivery ∈ s.deliveries) (hlive : delivery.isLive = true) :
    s.deliveries.find? (·.event = delivery.event) = some delivery := by
  obtain ⟨later, earlier, hsplit⟩ := List.append_of_mem hd
  have hlatest := h.latest
  rw [hsplit, List.pairwise_append] at hlatest
  refine List.find?_eq_some_iff_append.2 ⟨by simp, later, earlier, hsplit, fun d hd' => ?_⟩
  simpa using hlatest.2.2 d hd' delivery (List.mem_cons_self ..) hlive

/-- A step leaves the terminal rows as they are. -/
theorem Owned.terminal_next (h : s.Owned) (hlocks : s.Locks) (hnext : s.next action = some s')
    (htime : s.InTime action)
    (hrow : row ∈ s.rows) (hterminal : row.status.isTerminal = true) : row ∈ s'.rows := by
  have hack : ∀ {d : Delivery}, d ∈ s.deliveries → d.isLive = true → row.id ≠ d.event := by
    intro d hd hlive hid
    obtain ⟨own, hown, hid', hprocessing⟩ := h.processing d hd hlive
    rw [hlocks.row_unique hrow hown (hid.trans hid'.symm), hprocessing] at hterminal
    cases hterminal
  obtain ⟨row', hrow', hmove⟩ := moves_of_mem hnext hrow
  cases hmove with
  | same => exact hrow'
  | @claimed claim _ hclaim hid =>
    obtain ⟨own, hown, hid'⟩ := List.mem_map.1 hid
    obtain ⟨hmem, hclaimable⟩ := hlocks.held claim hclaim own hown
    rw [hlocks.row_unique hrow hmem hid'.symm, (pending_of_claimable hclaimable).2.1] at hterminal
    cases hterminal
  | processed hd hid => exact absurd hid (hack hd htime)
  | failed hd hid => exact absurd hid (hack hd htime)
  | reaped _ hzombie =>
    have hprocessing : row.status = .processing := by
      simp only [EventRow.isZombie, Bool.and_eq_true, decide_eq_true_eq] at hzombie
      exact hzombie.1.2
    rw [hprocessing] at hterminal
    cases hterminal

/-- In a run whose acknowledgements all come in time, completed and failed rows stay as they are, and an
acknowledgement finds its row processing, by the last claim of the event. -/
theorem terminal_final (hs : eventQueues.ReachableIf InTime s) (hrun : eventQueues.RunIf InTime s s') :
    (∀ row ∈ s.rows, row.status.isTerminal = true → row ∈ s'.rows) ∧
    ∀ delivery ack now t, s'.next (.acknowledges delivery ack now) = some t →
      s'.InTime (.acknowledges delivery ack now) →
      (∃ row ∈ s'.rows, row.id = delivery.event ∧ row.status = .processing) ∧
        s'.deliveries.find? (·.event = delivery.event) = some delivery := by
  constructor
  · intro row hrow hterminal
    induction hrun with
    | refl => exact hrow
    | step hbefore hstep htime ih =>
      have hreached := hbefore.reachableIf hs
      exact (owned_of_reachable hreached).terminal_next (locks_of_reachable hreached) hstep htime ih hterminal
  · intro delivery ack now t hnext htime
    have howned := owned_of_reachable (hrun.reachableIf hs)
    simp only [next] at hnext
    split at hnext <;> cases hnext
    next hack => exact ⟨howned.processing delivery hack.2.1 htime, howned.last hack.2.1 htime⟩

theorem empty_reachable {ok : EventQueue → QueueAction → Prop} : eventQueues.ReachableIf ok empty :=
  .init ⟨rfl, rfl, rfl, rfl, rfl⟩

/-- An event that is claimed and processed, and time that passes. -/
theorem terminal_final_processed : ∃ s s' : EventQueue, (∃ row ∈ s'.rows, row ∈ s.rows ∧ row.status = .completed) ∧
    ((∀ row ∈ s.rows, row.status.isTerminal = true → row ∈ s'.rows) ∧
      ∀ delivery ack now t, s'.next (.acknowledges delivery ack now) = some t →
        s'.InTime (.acknowledges delivery ack now) →
          (∃ row ∈ s'.rows, row.id = delivery.event ∧ row.status = .processing) ∧
          s'.deliveries.find? (·.event = delivery.event) = some delivery) := by
  let placed : EventRow := .published 7 (orderPaid none) 0
  have hplay : (System.play next InTime empty ([.publishes 7 (orderPaid none) 0] ++ claimOne 0 1 0 placed ++
      [.acknowledges ⟨0, 1, 7, 0, false, false⟩ .processed 0])).any
        (fun s => s.rows = [(placed.claimed 0).processed 0]) = true := by decide +kernel
  obtain ⟨s, hrun, hend⟩ := (Option.any_eq_true _ _).1 hplay
  have hs := empty_reachable.play (fun _ _ _ h => h) hrun
  have htick : eventQueues.RunIf InTime s { s with clock := s.clock } :=
    .step (i := .ticks s.clock) .refl (if_pos (Int.le_refl _)) trivial
  have hrows : s.rows = [(placed.claimed 0).processed 0] := of_decide_eq_true hend
  refine ⟨s, _, ⟨(placed.claimed 0).processed 0, ?_, ?_, rfl⟩, terminal_final hs htick⟩ <;> simp [hrows]

/-- A worker reports a failure after the reaper took its row back and another worker processed it: the
completed event is pending again. -/
theorem late_failure_revives : ∃ s s' : EventQueue, eventQueues.Reachable s ∧
    s.next (.acknowledges ⟨0, 1, 7, 0, false, true⟩ (.failed "slow" .retry) 400000000) = some s' ∧
    s.deliveries = [⟨1, 2, 7, 400000000, true, false⟩, ⟨0, 1, 7, 0, false, true⟩] ∧
    (∃ row ∈ s.rows, row.id = 7 ∧ row.status = .completed ∧ row.retryCount = 0) ∧
    (∃ row ∈ s'.rows, row.id = 7 ∧ row.status = .pending ∧ row.retryCount = 1) := by
  let placed : EventRow := .published 7 (orderPaid none) 0
  let returned : EventRow := (placed.claimed 0).reaped 400000000
  have hplay : (System.play next (fun _ _ => True) empty ([.publishes 7 (orderPaid none) 0] ++
      claimOne 0 1 0 placed ++
      [.ticks 400000000, .reaps "billing" ⟨300, 0, by decide, by decide⟩ 400000000] ++
        claimOne 1 2 400000000 returned ++
      [.acknowledges ⟨1, 2, 7, 400000000, false, false⟩ .processed 400000000])).any
        (fun s => (s.next (.acknowledges ⟨0, 1, 7, 0, false, true⟩ (.failed "slow" .retry) 400000000)).any fun s' =>
          s.deliveries = [⟨1, 2, 7, 400000000, true, false⟩, ⟨0, 1, 7, 0, false, true⟩] ∧
          (∃ row ∈ s.rows, row.id = 7 ∧ row.status = .completed ∧ row.retryCount = 0) ∧
          (∃ row ∈ s'.rows, row.id = 7 ∧ row.status = .pending ∧ row.retryCount = 1)) = true := by decide +kernel
  obtain ⟨s, hrun, hlate⟩ := (Option.any_eq_true _ _).1 hplay
  obtain ⟨s', hnext, hend⟩ := (Option.any_eq_true _ _).1 hlate
  exact ⟨s, s', empty_reachable.play (fun _ _ _ h => h) hrun, hnext, of_decide_eq_true hend⟩

end EventQueue
end Fusions.Mq
