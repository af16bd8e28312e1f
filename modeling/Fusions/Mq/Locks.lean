import Mathlib.Data.List.Perm.Basic
import Mathlib.Data.List.Nodup
import Fusions.Mq.EventQueue

/-! What one step does to the rows of the queue, and the row locks of the claims under way. -/
namespace Fusions.Mq
open Fusions.Library

namespace EventQueue
variable {s s' : EventQueue} {action : QueueAction} {row row' : EventRow} {claim : OpenClaim}

/-- The rows that a step leaves as they are. -/
def Spares (s : EventQueue) : QueueAction → EventRow → Prop
  | .commits claim, row => row.id ∉ claim.locked.map EventRow.id
  | .acknowledges delivery .processed _, row => row.id ≠ delivery.event
  | .acknowledges delivery (.failed _ _) _, row =>
    row.id = delivery.event → ∃ full ∈ s.rows, full.id = row.id ∧ inI32 (full.retryCount + 1) = false
  | .reaps targetService stuckAfter now, row => row.isZombie targetService stuckAfter now = false
  | _, _ => True

/-- What a step does to a row of the table. -/
inductive Moves (s : EventQueue) : QueueAction → EventRow → EventRow → Prop where
  | same {action : QueueAction} {row : EventRow} : s.Spares action row → Moves s action row row
  | claimed {claim : OpenClaim} {row : EventRow} : claim ∈ s.claims → row.id ∈ claim.locked.map EventRow.id →
      Moves s (.commits claim) row (row.claimed claim.now)
  | processed {delivery : Delivery} {row : EventRow} {now : Int} : delivery ∈ s.deliveries →
      row.id = delivery.event →
      s.isLocked row.id = false → Moves s (.acknowledges delivery .processed now) row (row.processed now)
  | failed {delivery : Delivery} {row : EventRow} {error : String} {decision : RetryDecision} {now : Int} :
      delivery ∈ s.deliveries → row.id = delivery.event → s.isLocked row.id = false → inI32 (row.retryCount + 1) →
      Moves s (.acknowledges delivery (.failed error decision) now) row (row.failed error decision now)
  | reaped {targetService : String} {stuckAfter : Duration} {row : EventRow} {now : Int} : now ≤ s.clock →
      row.isZombie targetService stuckAfter now → Moves s (.reaps targetService stuckAfter now) row (row.reaped now)

/-- The row of an acknowledgement that succeeds. -/
def acknowledged (row : EventRow) (now : Int) : Acknowledgement → EventRow
  | .processed => row.processed now
  | .failed error decision => row.failed error decision now

/-- An acknowledgement changes nothing, or its row and the flag of its delivery. -/
theorem acknowledge_cases (s : EventQueue) (delivery : Delivery) (ack : Acknowledgement) (now : Int) :
    s.acknowledge delivery ack now = s ∧ (∀ row ∈ s.rows, s.Spares (.acknowledges delivery ack now) row) ∨
    s.acknowledge delivery ack now = { s with
      rows := updateWhere s.rows (·.id = delivery.event) (acknowledged · now ack)
      deliveries := s.deliveries.map fun d => if d = delivery then { d with acknowledged := true } else d } ∧
      ∀ error decision, ack = .failed error decision →
        ∀ row ∈ s.rows, row.id = delivery.event → inI32 (row.retryCount + 1) = true := by
  have hmissing : s.rows.any (·.id = delivery.event) = false → ∀ row ∈ s.rows, row.id ≠ delivery.event := by
    simp
  unfold acknowledge applied
  cases ack with
  | processed =>
    cases hfound : s.rows.any (·.id = delivery.event) with
    | false => exact .inl ⟨by simp [markProcessed, affected, hfound], hmissing hfound⟩
    | true => exact .inr ⟨by simp [markProcessed, affected, hfound, acknowledged], by simp⟩
  | failed error decision =>
    by_cases hrange : (s.rows.all fun row => row.id != delivery.event || inI32 (row.retryCount + 1)) = true
    · cases hfound : s.rows.any (·.id = delivery.event) with
      | false =>
        refine .inl ⟨by simp [markFailed, affected, hfound, hrange], fun row hrow hid => ?_⟩
        exact absurd hid (hmissing hfound row hrow)
      | true =>
        refine .inr ⟨by simp only [markFailed, affected, hfound, hrange, if_true, acknowledged],
          fun _ _ _ row hrow hid => ?_⟩
        simpa [hid] using List.all_eq_true.1 hrange row hrow
    · obtain ⟨full, hfull, hover⟩ : ∃ full ∈ s.rows, full.id = delivery.event ∧
          inI32 (full.retryCount + 1) = false := by
        simpa using hrange
      exact .inl ⟨by simp only [markFailed, if_neg hrange],
        fun row _ hid => ⟨full, hfull, hover.1.trans hid.symm, hover.2⟩⟩

theorem Moves.id_eq (h : s.Moves action row row') : row'.id = row.id := by
  cases h <;> rfl

/-- A step puts a new row first, or moves every row. -/
theorem rows_of_next (h : s.next action = some s') :
    (∃ id event now, action = .publishes id event now ∧ (∀ row ∈ s.rows, row.id ≠ id) ∧
      s'.rows = .published id event now :: s.rows ∧ s'.publications = (id, event) :: s.publications) ∨
    s'.publications = s.publications ∧ ∃ f, s'.rows = s.rows.map f ∧
      ∀ row ∈ s.rows, s.Moves action row (f row) := by
  have hsame : ∀ {t : EventQueue}, t.rows = s.rows → (∀ row ∈ s.rows, s.Spares action row) →
      ∃ f, t.rows = s.rows.map f ∧ ∀ row ∈ s.rows, s.Moves action row (f row) :=
    fun hrows hspares => ⟨id, by rw [hrows, List.map_id], fun row hrow => .same (hspares row hrow)⟩
  have hupdate : ∀ {cond : EventRow → Bool} {set : EventRow → EventRow},
      (∀ row ∈ s.rows, cond row = true → s.Moves action row (set row)) →
      (∀ row, cond row = false → s.Spares action row) →
      ∀ row ∈ s.rows, s.Moves action row (if cond row then set row else row) := by
    intro cond set hset hspares row hrow
    split
    · next hcond => exact hset row hrow hcond
    · next hcond => exact .same (hspares row (eq_false_of_ne_true hcond))
  cases action with
  | publishes id event now =>
    simp only [next] at h
    split at h <;> cases h
    next hfresh => exact .inl ⟨id, event, now, rfl, by simpa using hfresh.2, rfl, rfl⟩
  | commits claim =>
    simp only [next] at h
    split at h <;> cases h
    next hcommits =>
    refine .inr ⟨rfl, _, rfl, hupdate (fun row _ hcond => .claimed hcommits.1 ?_) fun row hcond => ?_⟩
    · simpa using hcond
    · simpa [Spares] using hcond
  | acknowledges delivery ack now =>
    simp only [next] at h
    split at h <;> cases h
    next hack =>
    have hunlocked : ∀ row : EventRow, row.id = delivery.event → s.isLocked row.id = false := by
      intro row hrow
      rw [hrow]
      simpa using hack.2.2.2
    rcases s.acknowledge_cases delivery ack now with ⟨heq, hspares⟩ | ⟨heq, hrange⟩
    · rw [heq]
      exact .inr ⟨rfl, hsame rfl hspares⟩
    · rw [heq]
      refine .inr ⟨rfl, _, rfl, hupdate (fun row hrow hcond => ?_) fun row hcond => ?_⟩
      · have hid : row.id = delivery.event := by simpa using hcond
        cases ack with
        | processed => exact .processed hack.2.1 hid (hunlocked row hid)
        | failed error decision =>
          exact .failed hack.2.1 hid (hunlocked row hid) (hrange error decision rfl row hrow hid)
      · have hid : row.id ≠ delivery.event := by simpa using hcond
        cases ack with
        | processed => exact hid
        | failed error decision => exact fun heq => absurd heq hid
  | reaps targetService stuckAfter now =>
    simp only [next] at h
    split at h <;> cases h
    next hnow => exact .inr ⟨rfl, _, rfl, hupdate (fun row _ hcond => .reaped hnow hcond) fun row hcond => hcond⟩
  | locks claim =>
    simp only [next] at h
    split at h
    · obtain ⟨claim', -, rfl⟩ := Option.map_eq_some_iff.1 h
      exact .inr ⟨rfl, hsame rfl fun _ _ => trivial⟩
    · cases h
  | ticks clock =>
    simp only [next] at h
    split at h <;> cases h
    exact .inr ⟨rfl, hsame rfl fun _ _ => trivial⟩
  | begins worker targetService batchSize =>
    simp only [next] at h
    split at h <;> cases h
    exact .inr ⟨rfl, hsame rfl fun _ _ => trivial⟩
  | selects claim found =>
    simp only [next] at h
    split at h <;> cases h
    exact .inr ⟨rfl, hsame rfl fun _ _ => trivial⟩
  | rollsBack claim =>
    simp only [next] at h
    split at h <;> cases h
    exact .inr ⟨rfl, hsame rfl fun _ _ => trivial⟩
  | crashes worker =>
    cases h
    exact .inr ⟨rfl, hsame rfl fun _ _ => trivial⟩

theorem moves_of_mem (h : s.next action = some s') (hrow : row ∈ s.rows) :
    ∃ row' ∈ s'.rows, s.Moves action row row' := by
  rcases rows_of_next h with ⟨id, event, now, haction, -, hrows, -⟩ | ⟨-, f, hrows, hmoves⟩
  · exact ⟨row, hrows ▸ List.mem_cons_of_mem _ hrow, haction ▸ .same trivial⟩
  · exact ⟨f row, hrows ▸ List.mem_map_of_mem hrow, hmoves row hrow⟩

theorem mem_of_moves (h : s.next action = some s') (hrow : row' ∈ s'.rows) :
    (∃ id event now, action = .publishes id event now ∧ (∀ row ∈ s.rows, row.id ≠ id) ∧
      row' = .published id event now) ∨ ∃ row ∈ s.rows, s.Moves action row row' := by
  rcases rows_of_next h with ⟨id, event, now, haction, hfresh, hrows, -⟩ | ⟨-, f, hrows, hmoves⟩
  · rw [hrows] at hrow
    rcases List.mem_cons.1 hrow with rfl | hrow
    · exact .inl ⟨id, event, now, haction, hfresh, rfl⟩
    · exact .inr ⟨row', hrow, haction ▸ .same trivial⟩
  · rw [hrows] at hrow
    obtain ⟨row, hmem, rfl⟩ := List.mem_map.1 hrow
    exact .inr ⟨row, hmem, hmoves row hmem⟩

/-- A step delivers by a commit, or puts flags on what was delivered. -/
theorem deliveries_of_next (h : s.next action = some s') :
    (∃ claim ∈ s.claims, action = .commits claim ∧ s' = s.commit claim) ∨
    (∀ claim, action ≠ .commits claim) ∧ ∃ f, s'.deliveries = s.deliveries.map f ∧ ∀ d, (f d).event = d.event := by
  have hsame : ∀ {t : EventQueue}, t.deliveries = s.deliveries →
      ∃ f, t.deliveries = s.deliveries.map f ∧ ∀ d, (f d).event = d.event :=
    fun hdeliveries => ⟨id, by rw [hdeliveries, List.map_id], fun _ => rfl⟩
  cases action with
  | commits claim =>
    simp only [next] at h
    split at h <;> cases h
    next hcommits => exact .inl ⟨claim, hcommits.1, rfl, rfl⟩
  | acknowledges delivery ack now =>
    simp only [next] at h
    split at h <;> cases h
    rcases s.acknowledge_cases delivery ack now with ⟨heq, -⟩ | ⟨heq, -⟩
    · exact .inr ⟨by simp, hsame (by rw [heq])⟩
    · refine .inr ⟨by simp, _, by rw [heq], fun d => ?_⟩
      split <;> rfl
  | reaps targetService stuckAfter now =>
    simp only [next] at h
    split at h <;> cases h
    refine .inr ⟨by simp, _, rfl, fun d => ?_⟩
    split <;> rfl
  | locks claim =>
    simp only [next] at h
    split at h
    · obtain ⟨claim', -, rfl⟩ := Option.map_eq_some_iff.1 h
      exact .inr ⟨by simp, hsame rfl⟩
    · cases h
  | crashes worker =>
    cases h
    exact .inr ⟨by simp, hsame rfl⟩
  | ticks | publishes | begins | selects | rollsBack =>
    simp only [next] at h
    split at h <;> cases h
    exact .inr ⟨by simp, hsame rfl⟩

theorem row?_mem {id : EventId} (h : s.row? id = some row) : row ∈ s.rows ∧ row.id = id :=
  ⟨List.mem_of_find?_eq_some h, by simpa using List.find?_some h⟩

/-- A row that a step locks is of the claim's selection, unlocked so far, and still to be claimed. -/
theorem locked_of_lockNext {claim' : OpenClaim} (h : s.lockNext claim = some claim') :
    claim' = { claim with selected := claim'.selected, locked := claim'.locked } ∧
      (claim'.locked = claim.locked ∨ ∃ row ∈ s.rows, claim'.locked = row :: claim.locked ∧
        s.isLocked row.id = false ∧ row.isClaimable claim.targetService = true) := by
  unfold lockNext at h
  split at h
  · next id rest hselected =>
    split at h
    · split at h
      · next row hrow =>
        cases h
        obtain ⟨hrow, hcond⟩ := Option.filter_eq_some_iff.1 hrow
        obtain ⟨hmem, rfl⟩ := row?_mem hrow
        simp only [Bool.and_eq_true, Bool.not_eq_true'] at hcond
        exact ⟨rfl, .inr ⟨row, hmem, rfl, hcond.1, hcond.2⟩⟩
      · cases h
        exact ⟨rfl, .inl rfl⟩
    · cases h
  · cases h

/-- The locks of the claims under way: each is on a row that can be claimed, as it stands in the table, and
no row is locked twice. -/
structure Locks (s : EventQueue) : Prop where
  ids : (s.rows.map EventRow.id).Nodup
  held : ∀ claim ∈ s.claims, ∀ row ∈ claim.locked, row ∈ s.rows ∧ row.isClaimable claim.targetService = true
  nodup : ∀ claim ∈ s.claims, (claim.locked.map EventRow.id).Nodup
  apart : s.claims.Pairwise fun claim claim' =>
    ∀ row ∈ claim.locked, ∀ row' ∈ claim'.locked, row.id ≠ row'.id

theorem isLocked_of_mem (hclaim : claim ∈ s.claims) (hrow : row ∈ claim.locked) : s.isLocked row.id = true :=
  List.any_eq_true.2 ⟨claim, hclaim, List.any_eq_true.2 ⟨row, hrow, decide_eq_true rfl⟩⟩

theorem pending_of_claimable {targetService : String} (h : row.isClaimable targetService = true) :
    row.targetService = targetService ∧ row.status = .pending ∧ row.retryCount < row.maxRetries := by
  simpa [EventRow.isClaimable, and_assoc] using h

/-- Only its own claim's commit moves a row that is locked. -/
theorem Moves.of_locked (h : s.Moves action row row') (hlocked : s.isLocked row.id = true)
    (hrow : row.status = .pending) :
    row' = row ∨ ∃ claim ∈ s.claims, action = .commits claim ∧ row.id ∈ claim.locked.map EventRow.id := by
  cases h with
  | same _ => exact .inl rfl
  | claimed hclaim hid => exact .inr ⟨_, hclaim, rfl, hid⟩
  | processed _ _ hunlocked => rw [hunlocked] at hlocked; cases hlocked
  | failed _ _ hunlocked => rw [hunlocked] at hlocked; cases hlocked
  | reaped _ hzombie => simp [EventRow.isZombie, hrow] at hzombie

namespace Locks

private theorem ids_next (h : s.Locks) (hnext : s.next action = some s') : (s'.rows.map EventRow.id).Nodup := by
  rcases rows_of_next hnext with ⟨id, event, now, -, hfresh, hrows, -⟩ | ⟨-, f, hrows, hmoves⟩
  · rw [hrows]
    refine List.nodup_cons.2 ⟨?_, h.ids⟩
    simpa [EventRow.published] using fun row hrow => hfresh row hrow
  · have hids : s'.rows.map EventRow.id = s.rows.map EventRow.id := by
      rw [hrows, List.map_map]
      exact List.map_congr_left fun row hrow => (hmoves row hrow).id_eq
    rw [hids]
    exact h.ids

/-- A locked row stays as it is, whatever is done but to commit its claim. -/
private theorem mem_next (h : s.Locks) (hnext : s.next action = some s') (hclaim : claim ∈ s.claims)
    (hrow : row ∈ claim.locked)
    (hother : ∀ claim' ∈ s.claims, action = .commits claim' → row.id ∉ claim'.locked.map EventRow.id) :
    row ∈ s'.rows := by
  obtain ⟨hmem, hclaimable⟩ := h.held claim hclaim row hrow
  obtain ⟨row', hrow', hmoves⟩ := moves_of_mem hnext hmem
  rcases hmoves.of_locked (isLocked_of_mem hclaim hrow) (pending_of_claimable hclaimable).2.1 with
    rfl | ⟨claim', hclaim', haction, hid⟩
  · exact hrow'
  · exact absurd hid (hother claim' hclaim' haction)

/-- The claims that a step leaves alone keep their locks. -/
private theorem of_sublist (h : s.Locks) (hnext : s.next action = some s') (hsub : s'.claims.Sublist s.claims)
    (hother : ∀ claim' ∈ s.claims, action = .commits claim' → ∀ claim ∈ s'.claims, ∀ row ∈ claim.locked,
      row.id ∉ claim'.locked.map EventRow.id) : s'.Locks where
  ids := h.ids_next hnext
  held claim hclaim row hrow :=
    ⟨h.mem_next hnext (hsub.subset hclaim) hrow
      fun claim' hclaim' haction => hother claim' hclaim' haction claim hclaim row hrow,
      (h.held claim (hsub.subset hclaim) row hrow).2⟩
  nodup claim hclaim := h.nodup claim (hsub.subset hclaim)
  apart := h.apart.sublist hsub

private theorem apart_erase (h : s.Locks) (hclaim : claim ∈ s.claims) : ∀ claim' ∈ s.claims.erase claim,
    ∀ row ∈ claim.locked, ∀ row' ∈ claim'.locked, row.id ≠ row'.id := by
  have hsymm : ∀ {c c' : OpenClaim}, (∀ row ∈ c.locked, ∀ row' ∈ c'.locked, row.id ≠ row'.id) →
      ∀ row ∈ c'.locked, ∀ row' ∈ c.locked, row.id ≠ row'.id :=
    fun happart row hrow row' hrow' => (happart row' hrow' row hrow).symm
  exact (List.pairwise_cons.1 ((List.perm_cons_erase hclaim).pairwise h.apart hsymm)).1

/-- A claim that goes on, with the locks it has and perhaps one more. -/
private theorem putClaim {claim' : OpenClaim} (h : s.Locks) (hclaim : claim ∈ s.claims)
    (hservice : claim'.targetService = claim.targetService)
    (hlocked : claim'.locked = claim.locked ∨ ∃ row ∈ s.rows, claim'.locked = row :: claim.locked ∧
      s.isLocked row.id = false ∧ row.isClaimable claim.targetService = true) :
    (s.putClaim claim claim').Locks := by
  have hold := h.held claim hclaim
  have hrest : ∀ c ∈ s.claims.erase claim, c ∈ s.claims := fun c => List.mem_of_mem_erase
  have hfresh : ∀ {row : EventRow}, s.isLocked row.id = false →
      ∀ c ∈ s.claims, ∀ row' ∈ c.locked, row.id ≠ row'.id := by
    intro row hunlocked c hc row' hrow' hid
    rw [hid, isLocked_of_mem hc hrow'] at hunlocked
    cases hunlocked
  refine ⟨h.ids, ?_, ?_, ?_⟩
  · refine List.forall_mem_cons.2 ⟨fun row hrow => ?_, fun c hc => h.held c (hrest c hc)⟩
    rw [hservice]
    rcases hlocked with hsame | ⟨new, hnew, hcons, -, hclaimable⟩
    · exact hold row (hsame ▸ hrow)
    · rw [hcons] at hrow
      rcases List.mem_cons.1 hrow with rfl | hrow
      · exact ⟨hnew, hclaimable⟩
      · exact hold row hrow
  · refine List.forall_mem_cons.2 ⟨?_, fun c hc => h.nodup c (hrest c hc)⟩
    rcases hlocked with hsame | ⟨new, -, hcons, hunlocked, -⟩
    · rw [hsame]
      exact h.nodup claim hclaim
    · rw [hcons]
      refine List.nodup_cons.2 ⟨?_, h.nodup claim hclaim⟩
      simpa using fun row hrow heq => hfresh hunlocked claim hclaim row hrow heq.symm
  · refine List.pairwise_cons.2 ⟨fun c hc row hrow row' hrow' => ?_, h.apart.sublist List.erase_sublist⟩
    rcases hlocked with hsame | ⟨new, -, hcons, hunlocked, -⟩
    · exact h.apart_erase hclaim c hc row (hsame ▸ hrow) row' hrow'
    · rw [hcons] at hrow
      rcases List.mem_cons.1 hrow with rfl | hrow
      · exact hfresh hunlocked c (hrest c hc) row' hrow'
      · exact h.apart_erase hclaim c hc row hrow row' hrow'

theorem next (h : s.Locks) (hnext : s.next action = some s') : s'.Locks := by
  cases action with
  | begins worker targetService batchSize =>
    simp only [EventQueue.next] at hnext
    split at hnext <;> cases hnext
    refine ⟨h.ids, ?_, ?_, ?_⟩
    · exact List.forall_mem_cons.2 ⟨by simp, h.held⟩
    · exact List.forall_mem_cons.2 ⟨List.nodup_nil, h.nodup⟩
    · exact List.pairwise_cons.2 ⟨by simp, h.apart⟩
  | selects claim found =>
    simp only [EventQueue.next] at hnext
    split at hnext <;> cases hnext
    next hselects => exact h.putClaim hselects.1 rfl (.inl rfl)
  | locks claim =>
    simp only [EventQueue.next] at hnext
    split at hnext
    · next hclaim =>
      obtain ⟨claim', hlock, rfl⟩ := Option.map_eq_some_iff.1 hnext
      obtain ⟨hclaim', hlocked⟩ := locked_of_lockNext hlock
      exact h.putClaim hclaim (by rw [hclaim']) hlocked
    · cases hnext
  | commits claim =>
    refine h.of_sublist hnext ?_ ?_
    · simp only [EventQueue.next] at hnext
      split at hnext <;> cases hnext
      exact List.erase_sublist
    · rintro claim' hclaim' haction c hc row hrow hid
      cases haction
      simp only [EventQueue.next] at hnext
      split at hnext <;> cases hnext
      obtain ⟨row', hrow', heq⟩ := List.mem_map.1 hid
      exact h.apart_erase hclaim' c hc row' hrow' row hrow heq
  | rollsBack claim =>
    refine h.of_sublist hnext ?_ (by intro _ _ haction; cases haction)
    simp only [EventQueue.next] at hnext
    split at hnext <;> cases hnext
    exact List.erase_sublist
  | crashes worker =>
    refine h.of_sublist hnext ?_ (by intro _ _ haction; cases haction)
    cases hnext
    exact List.filter_sublist
  | acknowledges delivery ack now =>
    refine h.of_sublist hnext ?_ (by intro _ _ haction; cases haction)
    simp only [EventQueue.next] at hnext
    split at hnext <;> cases hnext
    rcases s.acknowledge_cases delivery ack now with ⟨heq, -⟩ | ⟨heq, -⟩ <;> rw [heq]
  | ticks | publishes | reaps =>
    refine h.of_sublist hnext ?_ (by intro _ _ haction; cases haction)
    simp only [EventQueue.next] at hnext
    split at hnext <;> cases hnext
    exact List.Sublist.refl _

end Locks

theorem locks_of_reachable {ok : EventQueue → QueueAction → Prop} (h : eventQueues.ReachableIf ok s) : s.Locks := by
  refine h.invariant (P := Locks) ?_ fun s action s' _ hs hstep _ => hs.next hstep
  rintro s ⟨hrows, hclaims, -⟩
  refine ⟨?_, ?_, ?_, ?_⟩ <;> simp [hrows, hclaims]

end EventQueue
end Fusions.Mq
