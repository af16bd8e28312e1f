import Mathlib.Algebra.Order.BigOperators.Group.List
import Mathlib.Algebra.GroupWithZero.Nat
import Mathlib.Algebra.Order.Group.Nat
import Fusions.Mq.Retries

/-! Which events can be brought to an end: those with a budget above zero, from any state of the queue. The others are
never claimed. -/
namespace Fusions.Mq
open Fusions.Library

namespace EventQueue
variable {s s' : EventQueue} {action : QueueAction} {row row' : EventRow}

/-- What a row says of the event that was published. -/
structure Publication (row : EventRow) (id : EventId) (event : PublishEvent) : Prop where
  id : row.id = id
  targetService : row.targetService = event.targetService
  maxRetries : row.maxRetries = asI32 event.budget

/-- The retries of a row against its budget. -/
structure Counted (row : EventRow) : Prop where
  nonneg : 0 ≤ row.retryCount
  range : row.maxRetries < 2 ^ 31
  unspent : 0 < row.maxRetries → row.status.isTerminal = false → row.retryCount < row.maxRetries
  unclaimed : row.maxRetries ≤ 0 → row.status = .pending

/-- The rows of what was published, whether or not they have a budget. -/
structure Budgets (s : EventQueue) : Prop where
  published : ∀ p ∈ s.publications, ∃ row ∈ s.rows, Publication row p.1 p.2
  counted : ∀ row ∈ s.rows, Counted row
  delivered : ∀ d ∈ s.deliveries, ∃ row ∈ s.rows, row.id = d.event ∧ 0 < row.maxRetries

private theorem Moves.fixed (h : s.Moves action row row') :
    row'.targetService = row.targetService ∧ row'.maxRetries = row.maxRetries := by
  cases h <;> exact ⟨rfl, rfl⟩

private theorem maxRetries_published (id : EventId) (event : PublishEvent) (now : Int) :
    (EventRow.published id event now).maxRetries = asI32 event.budget := by
  rw [EventRow.published, PublishEvent.budget]

private theorem asI32_lt (n : Int) : asI32 n < 2 ^ 31 := by
  have hlt : n.bmod (2 ^ 32) < (2 ^ 32 + 1) / 2 := Int.bmod_lt (by decide)
  exact hlt

private theorem counted_published (id : EventId) (event : PublishEvent) (now : Int) :
    Counted (.published id event now) := by
  have hmax := maxRetries_published id event now
  generalize hrow : EventRow.published id event now = row at hmax
  have hcount : row.retryCount = 0 := by rw [← hrow, EventRow.published]
  refine ⟨by omega, ?_, fun _ _ => by omega, fun _ => by rw [← hrow, EventRow.published]⟩
  rw [hmax]
  exact asI32_lt _

private theorem counted_moved (h : s.Budgets) (hlocks : s.Locks) (hrow : row ∈ s.rows)
    (hmove : s.Moves action row row') : Counted row' := by
  have hcounted := h.counted row hrow
  have hdelivery : ∀ d ∈ s.deliveries, row.id = d.event → 0 < row.maxRetries := by
    intro d hd hid
    obtain ⟨own, hown, hid', hpositive⟩ := h.delivered d hd
    rwa [hlocks.row_unique hrow hown (hid.trans hid'.symm)]
  cases hmove with
  | same _ => exact hcounted
  | @claimed claim _ hclaim hid =>
    obtain ⟨own, hown, hid'⟩ := List.mem_map.1 hid
    obtain ⟨hmem, hclaimable⟩ := hlocks.held claim hclaim own hown
    obtain rfl := hlocks.row_unique hmem hrow hid'
    obtain ⟨-, -, hlt⟩ := pending_of_claimable hclaimable
    have hnonneg := hcounted.nonneg
    refine ⟨hnonneg, hcounted.range, fun _ _ => hlt, fun hnone => ?_⟩
    have hnone : own.maxRetries ≤ 0 := hnone
    omega
  | @processed d _ _ hd hid =>
    have hpositive := hdelivery d hd hid
    refine ⟨hcounted.nonneg, hcounted.range, fun _ hstatus => ?_, fun hnone => absurd hpositive (Int.not_lt.2 hnone)⟩
    cases hstatus
  | @failed d _ _ decision _ hd hid =>
    have hpositive := hdelivery d hd hid
    have hnonneg := hcounted.nonneg
    refine ⟨?_, hcounted.range, fun _ hstatus => ?_, fun hnone => absurd hpositive (Int.not_lt.2 hnone)⟩
    · show 0 ≤ row.retryCount + 1
      omega
    · simp only [EventRow.failed] at hstatus ⊢
      split at hstatus
      · simp [EventStatus.isTerminal] at hstatus
      · omega
  | reaped _ hzombie =>
    have hprocessing : row.status = .processing := by
      simp only [EventRow.isZombie, Bool.and_eq_true, decide_eq_true_eq] at hzombie
      exact hzombie.1.2
    refine ⟨hcounted.nonneg, hcounted.range, fun hpositive _ => ?_, fun hnone => ?_⟩
    · exact hcounted.unspent hpositive (by rw [hprocessing]; rfl)
    · have hpending := hcounted.unclaimed hnone
      rw [hprocessing] at hpending
      cases hpending

private theorem kept_next (h : s.next action = some s') (hrow : row ∈ s.rows) :
    ∃ row' ∈ s'.rows, row'.id = row.id ∧ row'.targetService = row.targetService ∧ row'.maxRetries = row.maxRetries := by
  obtain ⟨row', hrow', hmove⟩ := moves_of_mem h hrow
  exact ⟨row', hrow', hmove.id_eq, hmove.fixed⟩

theorem Budgets.next (h : s.Budgets) (hlocks : s.Locks) (hnext : s.next action = some s') : s'.Budgets := by
  have hpublished : ∀ p ∈ s.publications, ∃ row ∈ s'.rows, Publication row p.1 p.2 := by
    intro p hp
    obtain ⟨row, hrow, hid, hservice, hmax⟩ := h.published p hp
    obtain ⟨row', hrow', hid', hservice', hmax'⟩ := kept_next hnext hrow
    exact ⟨row', hrow', hid'.trans hid, hservice'.trans hservice, hmax'.trans hmax⟩
  have hknown : ∀ {id : EventId}, (∃ row ∈ s.rows, row.id = id ∧ 0 < row.maxRetries) →
      ∃ row ∈ s'.rows, row.id = id ∧ 0 < row.maxRetries := by
    rintro id ⟨row, hrow, hid, hpositive⟩
    obtain ⟨row', hrow', hid', -, hmax'⟩ := kept_next hnext hrow
    exact ⟨row', hrow', hid'.trans hid, hmax'.symm ▸ hpositive⟩
  refine ⟨?_, fun row' hrow' => ?_, fun d' hd' => ?_⟩
  · rcases rows_of_next hnext with ⟨id, event, now, -, -, hrows, hpublications⟩ | ⟨hpublications, -⟩
    · rw [hpublications]
      exact List.forall_mem_cons.2
        ⟨⟨_, hrows ▸ List.mem_cons_self, rfl, rfl, maxRetries_published id event now⟩, hpublished⟩
    · rw [hpublications]
      exact hpublished
  · rcases mem_of_moves hnext hrow' with ⟨id, event, now, -, -, rfl⟩ | ⟨row, hrow, hmove⟩
    · exact counted_published id event now
    · exact counted_moved h hlocks hrow hmove
  · rcases deliveries_of_next hnext with ⟨claim, hclaim, rfl, rfl⟩ | ⟨-, f, hdeliveries, hevent⟩
    · rcases List.mem_append.1 hd' with hd' | hd'
      · obtain ⟨id, hid, rfl⟩ := List.mem_map.1 hd'
        obtain ⟨own, hown, rfl⟩ := List.mem_map.1 hid
        obtain ⟨hmem, hclaimable⟩ := hlocks.held claim hclaim own (List.mem_reverse.1 hown)
        have hlt := (pending_of_claimable hclaimable).2.2
        have hnonneg := (h.counted own hmem).nonneg
        exact hknown ⟨own, hmem, rfl, by omega⟩
      · exact hknown (h.delivered d' hd')
    · rw [hdeliveries] at hd'
      obtain ⟨d, hd, rfl⟩ := List.mem_map.1 hd'
      rw [hevent]
      exact hknown (h.delivered d hd)

theorem budgets_of_reachable {ok : EventQueue → QueueAction → Prop} (h : eventQueues.ReachableIf ok s) :
    s.Budgets := by
  refine h.invariant (P := Budgets) ?_ fun s action s' hs hbudgets hstep _ =>
    hbudgets.next (locks_of_reachable hs) hstep
  rintro s ⟨hrows, -, hpublications, hdeliveries, -⟩
  constructor <;> simp [hrows, hpublications, hdeliveries]

/-- A row without a budget stays as it is. -/
private theorem unbudgeted_next (h : s.Budgets) (hlocks : s.Locks) (hnext : s.next action = some s')
    (hrow : row ∈ s.rows) (hnone : row.maxRetries ≤ 0) : row ∈ s'.rows := by
  obtain ⟨row', hrow', hmove⟩ := moves_of_mem hnext hrow
  have hcounted := h.counted row hrow
  have hdelivery : ∀ d ∈ s.deliveries, row.id ≠ d.event := by
    intro d hd hid
    obtain ⟨own, hown, hid', hpositive⟩ := h.delivered d hd
    rw [hlocks.row_unique hown hrow (hid'.trans hid.symm)] at hpositive
    omega
  cases hmove with
  | same _ => exact hrow'
  | @claimed claim _ hclaim hid =>
    obtain ⟨own, hown, hid'⟩ := List.mem_map.1 hid
    obtain ⟨hmem, hclaimable⟩ := hlocks.held claim hclaim own hown
    obtain rfl := hlocks.row_unique hmem hrow hid'
    have hlt := (pending_of_claimable hclaimable).2.2
    have hnonneg := hcounted.nonneg
    omega
  | @processed d _ _ hd hid => exact absurd hid (hdelivery d hd)
  | @failed d _ _ _ _ hd hid => exact absurd hid (hdelivery d hd)
  | reaped _ hzombie => simp [EventRow.isZombie, hcounted.unclaimed hnone] at hzombie

/-- A service that consumes its events: it claims batches, handles what it gets, and reaps. -/
structure Consumer where
  worker : WorkerId
  targetService : String
  batchSize : Nat
  stuckAfter : Duration
  handle : ClaimedEvent → Acknowledgement

/-- The consumer goes on alone, and claims that nobody finishes are rolled back. -/
def Alone (consumer : Consumer) (s : EventQueue) : QueueAction → Prop
  | .ticks _ | .rollsBack _ => True
  | .publishes _ _ _ | .crashes _ => False
  | .begins worker targetService batchSize =>
    worker = consumer.worker ∧ targetService = consumer.targetService ∧ batchSize = consumer.batchSize
  | .selects claim _ | .locks claim | .commits claim => claim.worker = consumer.worker
  | .acknowledges delivery ack _ =>
    delivery.worker = consumer.worker ∧ ∀ row ∈ s.row? delivery.event, ack = consumer.handle row.toClaimed
  | .reaps targetService stuckAfter _ => targetService = consumer.targetService ∧ stuckAfter = consumer.stuckAfter

/-- The runs of a consumer that goes on alone. -/
abbrev Consumer.Runs (consumer : Consumer) : EventQueue → EventQueue → Prop := eventQueues.RunIf (Alone consumer)

/-- The deliveries that may still be acknowledged of an event of a service. -/
def attemptsLeft (targetService : String) (row : EventRow) : Nat :=
  if row.targetService = targetService ∧ row.status.isTerminal = false then (row.maxRetries - row.retryCount).toNat
  else 0

/-- Nothing is under way for the service. -/
structure Rested (consumer : Consumer) (s : EventQueue) : Prop where
  reachable : eventQueues.Reachable s
  claims : s.claims = []
  runs : consumer.worker ∉ s.crashed
  processing : ∀ row ∈ s.rows, row.targetService = consumer.targetService → row.status ≠ .processing

section
variable {consumer : Consumer}

private theorem unlocked_of_nil (h : s.claims = []) (id : EventId) : s.isLocked id = false := by
  rw [isLocked, h]
  rfl

private theorem row?_of_mem (h : s.Locks) (hrow : row ∈ s.rows) : s.row? row.id = some row := by
  cases hfound : s.row? row.id with
  | none => exact absurd (List.find?_eq_none.1 hfound row hrow) (by simp)
  | some row' =>
    obtain ⟨hrow', hid⟩ := row?_mem hfound
    rw [h.row_unique hrow' hrow hid]

/-- The claims under way are rolled back. -/
private theorem rollBack_run (consumer : Consumer) (s : EventQueue) : consumer.Runs s { s with claims := [] } := by
  obtain ⟨clock, rows, claims, nextClaim, crashed, publications, deliveries, batches⟩ := s
  induction claims with
  | nil => exact .refl
  | cons claim claims ih =>
    have hstep : next ⟨clock, rows, claim :: claims, nextClaim, crashed, publications, deliveries, batches⟩
        (.rollsBack claim) = some ⟨clock, rows, claims, nextClaim, crashed, publications, deliveries, batches⟩ := by
      rw [next, if_pos List.mem_cons_self, List.erase_cons_head]
    exact (System.RunIf.refl.step (i := .rollsBack claim) hstep trivial).trans ih

/-- There is a time at which every processing row of a service is stuck. -/
private theorem exists_zombies (targetService : String) (stuckAfter : Duration) (clock : Int) (rows : List EventRow) :
    ∃ now, clock ≤ now ∧ ∀ row ∈ rows, row.targetService = targetService → row.status = .processing →
      row.isZombie targetService stuckAfter now = true := by
  suffices hlate : ∃ now, clock ≤ now ∧ ∀ row ∈ rows, row.updatedAt < now - makeInterval (asI32 stuckAfter.secs) by
    obtain ⟨now, hnow, hrows⟩ := hlate
    refine ⟨now, hnow, fun row hrow hservice hstatus => ?_⟩
    simp [EventRow.isZombie, hservice, hstatus, hrows row hrow]
  generalize makeInterval (asI32 stuckAfter.secs) = interval
  induction rows with
  | nil => exact ⟨clock, Int.le_refl _, by simp⟩
  | cons row rows ih =>
    obtain ⟨now, hnow, hrows⟩ := ih
    refine ⟨max now (row.updatedAt + interval + 1), by omega, List.forall_mem_cons.2 ⟨by omega, fun x hx => ?_⟩⟩
    have hbefore := hrows x hx
    omega

/-- Whatever state the others have left, the consumer comes to rest. -/
private theorem rest_run (h : eventQueues.Reachable s) (hworker : consumer.worker ∉ s.crashed) :
    ∃ t, consumer.Runs s t ∧ t.Rested consumer := by
  obtain ⟨now, hnow, hzombies⟩ := exists_zombies consumer.targetService consumer.stuckAfter s.clock s.rows
  let u : EventQueue := { s with claims := [], clock := now }
  have hticks : consumer.Runs s u :=
    (rollBack_run consumer s).step (i := .ticks now) (if_pos hnow) trivial
  have hreaps : consumer.Runs s (u.reap consumer.targetService consumer.stuckAfter now) :=
    hticks.step (i := .reaps consumer.targetService consumer.stuckAfter now) (if_pos (Int.le_refl _)) ⟨rfl, rfl⟩
  refine ⟨_, hreaps, hreaps.reachable h, rfl, hworker, fun row hrow hservice hprocessing => ?_⟩
  obtain ⟨old, hold, rfl⟩ := List.mem_map.1 hrow
  split at hservice
  · next hzombie =>
    simp only [if_pos hzombie, EventRow.reaped] at hprocessing
    split at hprocessing <;> cases hprocessing
  · next hzombie =>
    rw [if_neg hzombie] at hprocessing
    exact hzombie (hzombies old hold hservice hprocessing)

/-- `ORDER BY created_at`. -/
private def byCreatedAt (a b : EventRow) : Bool := decide (a.createdAt ≤ b.createdAt)

private theorem exists_selection (h : s.Locks) (targetService : String) :
    ∃ found, s.isSelection targetService found = true ∧
      ∀ row ∈ s.rows, row.isClaimable targetService = true → row.id ∈ found := by
  let claimable := s.rows.filter (·.isClaimable targetService)
  let sorted := claimable.mergeSort byCreatedAt
  have hperm : sorted.Perm claimable := List.mergeSort_perm claimable byCreatedAt
  have hrows : (sorted.map EventRow.id).filterMap s.row? = sorted := by
    rw [List.filterMap_map]
    refine (List.filterMap_congr fun row hrow => ?_).trans List.filterMap_some
    exact row?_of_mem h (List.mem_filter.1 (hperm.mem_iff.1 hrow)).1
  have hsorted : sorted.Pairwise fun a b => byCreatedAt a b = true := by
    refine List.pairwise_mergeSort (fun a b c hab hbc => ?_) (fun a b => ?_) claimable
    · exact decide_eq_true (Int.le_trans (of_decide_eq_true hab) (of_decide_eq_true hbc))
    · simpa [byCreatedAt] using Int.le_total a.createdAt b.createdAt
  refine ⟨sorted.map EventRow.id, ?_, fun row hrow hclaimable => ?_⟩
  · rw [isSelection, Bool.and_eq_true, hrows]
    exact ⟨List.isPerm_iff.2 (hperm.map _), decide_eq_true (hsorted.imp of_decide_eq_true)⟩
  · exact List.mem_map_of_mem (hperm.mem_iff.2 (List.mem_filter.2 ⟨hrow, hclaimable⟩))

private theorem lockNext_of_free {claim : OpenClaim} {rest : List EventId}
    (hselected : claim.selected = some (row.id :: rest)) (hroom : claim.locked.length < claim.batchSize)
    (hrow : s.row? row.id = some row) (hfree : s.isLocked row.id = false)
    (hclaimable : row.isClaimable claim.targetService = true) :
    s.lockNext claim = some { claim with selected := some rest, locked := row :: claim.locked } := by
  have hcond : (!s.isLocked row.id && row.isClaimable claim.targetService) = true := by
    rw [hfree]
    exact hclaimable
  rw [lockNext, hselected]
  dsimp only
  rw [if_pos hroom, hrow, Option.filter_some, if_pos hcond]

/-- A claim alone goes on until it is complete. -/
private theorem lock_run (rest : List EventId) (s : EventQueue) (claim : OpenClaim) (hclaims : s.claims = [claim])
    (hworker : claim.worker = consumer.worker) (hselected : claim.selected = some rest) :
    ∃ claim' : OpenClaim, consumer.Runs s { s with claims := [claim'] } ∧ isComplete claim' = true ∧
      claim.locked ⊆ claim'.locked ∧ claim' = { claim with selected := claim'.selected, locked := claim'.locked } := by
  induction rest generalizing s claim with
  | nil =>
    refine ⟨claim, ?_, by simp [isComplete, hselected], List.Subset.refl _, rfl⟩
    rw [← hclaims]
    exact .refl
  | cons id rest ih =>
    by_cases hfull : claim.batchSize ≤ claim.locked.length
    · refine ⟨claim, ?_, by simp [isComplete, hselected, hfull], List.Subset.refl _, rfl⟩
      rw [← hclaims]
      exact .refl
    · obtain ⟨claim₁, hlock, hselected₁, hsub⟩ : ∃ claim₁, s.lockNext claim = some claim₁ ∧
          claim₁.selected = some rest ∧ claim.locked ⊆ claim₁.locked := by
        rw [lockNext, hselected]
        dsimp only
        rw [if_pos (Nat.lt_of_not_le hfull)]
        split
        · exact ⟨_, rfl, rfl, List.subset_cons_self _ _⟩
        · exact ⟨_, rfl, rfl, List.Subset.refl _⟩
      have hclaim₁ := (locked_of_lockNext hlock).1
      have hstep : s.next (.locks claim) = some { s with claims := [claim₁] } := by
        rw [next, if_pos (by rw [hclaims]; exact List.mem_singleton_self _), hlock, Option.map_some, putClaim, hclaims,
          List.erase_cons_head]
      obtain ⟨claim₂, hrun, hcomplete, hsub', hclaim₂⟩ := ih { s with claims := [claim₁] } claim₁ rfl
        (by rw [hclaim₁]; exact hworker) hselected₁
      refine ⟨claim₂, (System.RunIf.refl.step (i := .locks claim) hstep hworker).trans hrun, hcomplete,
        List.Subset.trans hsub hsub', ?_⟩
      rw [hclaim₂, hclaim₁]

/-- The consumer claims a batch with at least one event, if there is one that can be claimed. -/
private theorem claim_run (h : s.Rested consumer) (hbatch : 0 < consumer.batchSize) (hrow : row ∈ s.rows)
    (hclaimable : row.isClaimable consumer.targetService = true) :
    ∃ claim : OpenClaim, consumer.Runs s { s with claims := [claim], nextClaim := s.nextClaim + 1 } ∧
      isComplete claim = true ∧ claim.locked ≠ [] ∧ claim.worker = consumer.worker ∧
      claim.targetService = consumer.targetService := by
  have hlocks := locks_of_reachable h.reachable
  obtain ⟨found, hfound, hmem⟩ := exists_selection hlocks consumer.targetService
  obtain ⟨id, rest, rfl⟩ := List.exists_cons_of_ne_nil (List.ne_nil_of_mem (hmem row hrow hclaimable))
  obtain ⟨first, hfirst, rfl⟩ : ∃ first ∈ s.rows.filter (·.isClaimable consumer.targetService), first.id = id := by
    rw [isSelection, Bool.and_eq_true] at hfound
    exact List.mem_map.1 ((List.isPerm_iff.1 hfound.1).mem_iff.1 List.mem_cons_self)
  obtain ⟨hfirst, hclaimable⟩ := List.mem_filter.1 hfirst
  let opened : OpenClaim :=
    ⟨s.nextClaim, consumer.worker, consumer.targetService, consumer.batchSize, s.clock, none, []⟩
  let selecting : OpenClaim := { opened with selected := some (first.id :: rest) }
  let locking : OpenClaim := { opened with selected := some rest, locked := [first] }
  let t (claim : OpenClaim) : EventQueue := { s with claims := [claim], nextClaim := s.nextClaim + 1 }
  have hbegins : s.next (.begins consumer.worker consumer.targetService consumer.batchSize) = some (t opened) := by
    rw [EventQueue.next, if_neg h.runs, h.claims]
  have hselects : (t opened).next (.selects opened (first.id :: rest)) = some (t selecting) := by
    rw [EventQueue.next, if_pos ⟨List.mem_singleton_self _, rfl, hfound⟩, putClaim, List.erase_cons_head]
  have hlock : (t selecting).lockNext selecting = some locking := by
    have hrow? : s.row? first.id = some first := row?_of_mem hlocks hfirst
    exact lockNext_of_free rfl hbatch hrow? rfl hclaimable
  have hlocking : (t selecting).next (.locks selecting) = some (t locking) := by
    rw [EventQueue.next, if_pos (List.mem_singleton_self _), hlock, Option.map_some, putClaim, List.erase_cons_head]
  have hopened : consumer.Runs s (t opened) := System.RunIf.refl.step hbegins ⟨rfl, rfl, rfl⟩
  have hselected : consumer.Runs s (t selecting) := hopened.step hselects rfl
  have hrun : consumer.Runs s (t locking) := hselected.step hlocking rfl
  obtain ⟨claim, hrest, hcomplete, hsub, hclaim⟩ := lock_run rest (t locking) locking rfl rfl rfl
  refine ⟨claim, hrun.trans hrest, hcomplete, List.ne_nil_of_mem (hsub (List.mem_singleton_self _)), ?_, ?_⟩ <;>
    rw [hclaim]

/-- The answer of the handler ends a delivery. -/
private theorem acknowledged_attemptsLeft {targetService : String} {now : Int} (ack : Acknowledgement)
    (hservice : row.targetService = targetService) (hprocessing : row.status = .processing)
    (hunspent : row.retryCount < row.maxRetries) :
    attemptsLeft targetService (acknowledged row now ack) < attemptsLeft targetService row ∧
      (acknowledged row now ack).status ≠ .processing := by
  have hleft : attemptsLeft targetService row = (row.maxRetries - row.retryCount).toNat :=
    if_pos ⟨hservice, by rw [hprocessing]; rfl⟩
  rw [hleft]
  cases ack with
  | processed =>
    have hdone : attemptsLeft targetService (row.processed now) = 0 := if_neg fun hboth => Bool.noConfusion hboth.2
    exact ⟨by rw [acknowledged, hdone]; omega, by simp [acknowledged, EventRow.processed]⟩
  | failed error decision =>
    refine ⟨?_, ?_⟩
    · rw [acknowledged, attemptsLeft]
      split
      · show (row.maxRetries - (row.retryCount + 1)).toNat < _
        omega
      · omega
    · simp only [acknowledged, EventRow.failed]
      split
      · simp
      · cases decision <;> simp [EventRow.nextStatus]

private theorem acknowledge_of_row (hlocks : s.Locks) {delivery : Delivery} (ack : Acknowledgement) (now : Int)
    (hrow : row ∈ s.rows) (hid : row.id = delivery.event) (hrange : inI32 (row.retryCount + 1) = true) :
    s.acknowledge delivery ack now = { s with
      rows := updateWhere s.rows (·.id = delivery.event) (acknowledged · now ack)
      deliveries := s.deliveries.map fun d => if d = delivery then { d with acknowledged := true } else d } := by
  rcases s.acknowledge_cases delivery ack now with ⟨-, hspares⟩ | ⟨heq, -⟩
  · have hspared := hspares row hrow
    cases ack with
    | processed => exact absurd hid hspared
    | failed error decision =>
      obtain ⟨full, hfull, hid', hover⟩ := hspared hid
      rw [hlocks.row_unique hfull hrow hid', hrange] at hover
      cases hover
  · exact heq

private theorem inI32_of_unspent (h : Counted row) (hunspent : row.retryCount < row.maxRetries) :
    inI32 (row.retryCount + 1) = true := by
  have hnonneg := h.nonneg
  have hrange := h.range
  rw [inI32, Bool.and_eq_true]
  exact ⟨decide_eq_true (by omega), decide_eq_true (by omega)⟩

/-- The consumer handles what a claim has returned, one event after the other. -/
private theorem handle_run (ids : List EventId) (hids : ids.Nodup) (h : eventQueues.Reachable s)
    (hclaims : s.claims = []) (hworker : consumer.worker ∉ s.crashed)
    (hheld : ∀ id ∈ ids, (∃ d ∈ s.deliveries, d.worker = consumer.worker ∧ d.event = id) ∧
      ∃ row ∈ s.rows, row.id = id ∧ row.targetService = consumer.targetService ∧ row.status = .processing)
    (hothers : ∀ row ∈ s.rows, row.targetService = consumer.targetService → row.status = .processing → row.id ∈ ids) :
    ∃ t, consumer.Runs s t ∧ t.Rested consumer ∧
      (t.rows.map (attemptsLeft consumer.targetService)).sum ≤ (s.rows.map (attemptsLeft consumer.targetService)).sum ∧
      (ids ≠ [] → (t.rows.map (attemptsLeft consumer.targetService)).sum <
        (s.rows.map (attemptsLeft consumer.targetService)).sum) := by
  induction ids generalizing s with
  | nil =>
    exact ⟨s, .refl, ⟨h, hclaims, hworker, fun row hrow hservice hprocessing =>
      absurd (hothers row hrow hservice hprocessing) List.not_mem_nil⟩, Nat.le_refl _, fun hne => absurd rfl hne⟩
  | cons id ids ih =>
    have hlocks := locks_of_reachable h
    obtain ⟨hfresh, hids⟩ := List.nodup_cons.1 hids
    obtain ⟨⟨d, hd, hdworker, hevent⟩, row, hrow, hid, hservice, hprocessing⟩ := hheld id List.mem_cons_self
    have hcounted := (budgets_of_reachable h).counted row hrow
    have hunspent : row.retryCount < row.maxRetries := by
      refine hcounted.unspent (Int.not_le.1 fun hnone => ?_) (by rw [hprocessing]; rfl)
      have hpending := hcounted.unclaimed hnone
      rw [hprocessing] at hpending
      cases hpending
    have hrowid : row.id = d.event := hid.trans hevent.symm
    let ack := consumer.handle row.toClaimed
    let flagged (x : Delivery) : Delivery := if x = d then { x with acknowledged := true } else x
    let t : EventQueue := { s with
      rows := updateWhere s.rows (·.id = d.event) (acknowledged · s.clock ack)
      deliveries := s.deliveries.map flagged }
    have hstep : s.next (.acknowledges d ack s.clock) = some t := by
      have hfree : (!s.isLocked d.event) = true := by rw [unlocked_of_nil hclaims]; rfl
      rw [EventQueue.next, if_pos ⟨Int.le_refl _, hd, hdworker ▸ hworker, hfree⟩,
        acknowledge_of_row hlocks ack s.clock hrow hrowid (inI32_of_unspent hcounted hunspent)]
    have hacks : consumer.Runs s t := System.RunIf.refl.step hstep ⟨hdworker, fun own hown => by
      obtain ⟨hmem, hownid⟩ := row?_mem hown
      rw [hlocks.row_unique hmem hrow (hownid.trans hrowid.symm)]⟩
    have hkept : ∀ own ∈ s.rows, own.id ≠ id → own ∈ t.rows := fun own hown hne =>
      List.mem_map.2 ⟨own, hown, if_neg (by simpa [hevent] using hne)⟩
    have hanswer : ∀ own ∈ s.rows, own.id = id →
        attemptsLeft consumer.targetService (acknowledged own s.clock ack) < attemptsLeft consumer.targetService own ∧
          (acknowledged own s.clock ack).status ≠ .processing := by
      intro own hown hownid
      rw [hlocks.row_unique hown hrow (hownid.trans hid.symm)]
      exact acknowledged_attemptsLeft ack hservice hprocessing hunspent
    have hheld' : ∀ id' ∈ ids, (∃ x ∈ t.deliveries, x.worker = consumer.worker ∧ x.event = id') ∧
        ∃ own ∈ t.rows, own.id = id' ∧ own.targetService = consumer.targetService ∧ own.status = .processing := by
      intro id' hid'
      obtain ⟨⟨x, hx, hxworker, hxevent⟩, own, hown, hownid, hrest⟩ := hheld id' (List.mem_cons_of_mem _ hid')
      have hne : own.id ≠ id := fun heq => hfresh (heq ▸ hownid ▸ hid')
      have hflagged : (flagged x).worker = x.worker ∧ (flagged x).event = x.event := by
        dsimp only [flagged]
        split <;> exact ⟨rfl, rfl⟩
      exact ⟨⟨flagged x, List.mem_map_of_mem hx, hflagged.1.trans hxworker, hflagged.2.trans hxevent⟩, own,
        hkept own hown hne, hownid, hrest⟩
    have hothers' : ∀ own ∈ t.rows, own.targetService = consumer.targetService → own.status = .processing →
        own.id ∈ ids := by
      intro own hown hownservice hownprocessing
      obtain ⟨old, hold, rfl⟩ := List.mem_map.1 hown
      by_cases holdid : old.id = d.event
      · rw [if_pos (decide_eq_true holdid)] at hownprocessing
        exact absurd hownprocessing (hanswer old hold (holdid.trans hevent)).2
      · rw [if_neg (by simpa using holdid)] at hownservice hownprocessing ⊢
        exact (List.mem_cons.1 (hothers old hold hownservice hownprocessing)).resolve_left
          fun heq => holdid (heq.trans hevent.symm)
    have hless : (t.rows.map (attemptsLeft consumer.targetService)).sum <
        (s.rows.map (attemptsLeft consumer.targetService)).sum := by
      have hrows : t.rows.map (attemptsLeft consumer.targetService) = s.rows.map fun own =>
          attemptsLeft consumer.targetService (if own.id = d.event then acknowledged own s.clock ack else own) := by
        simp only [t, updateWhere, List.map_map, Function.comp_def, decide_eq_true_eq]
      rw [hrows]
      refine List.sum_lt_sum _ _ (fun own hown => ?_) ⟨row, hrow, ?_⟩
      · split
        · next hownid => exact Nat.le_of_lt (hanswer own hown (hownid.trans hevent)).1
        · exact Nat.le_refl _
      · rw [if_pos hrowid]
        exact (hanswer row hrow hid).1
    obtain ⟨u, hrun, hrested, hle, -⟩ := ih hids (hacks.reachable h) hclaims hworker hheld' hothers'
    have hend := Nat.lt_of_le_of_lt hle hless
    exact ⟨u, hacks.trans hrun, hrested, Nat.le_of_lt hend, fun _ => hend⟩

/-- A batch takes the consumer forward. -/
private theorem batch_run (h : s.Rested consumer) (hbatch : 0 < consumer.batchSize) (hrow : row ∈ s.rows)
    (hclaimable : row.isClaimable consumer.targetService = true) :
    ∃ t, consumer.Runs s t ∧ t.Rested consumer ∧
      (t.rows.map (attemptsLeft consumer.targetService)).sum <
        (s.rows.map (attemptsLeft consumer.targetService)).sum := by
  obtain ⟨claim, hclaims, hcomplete, hsome, hworker, hservice⟩ := claim_run h hbatch hrow hclaimable
  let t : EventQueue := { s with claims := [claim], nextClaim := s.nextClaim + 1 }
  have hlocks := locks_of_reachable (hclaims.reachable h.reachable)
  have hclaim : claim ∈ t.claims := List.mem_singleton_self _
  have hcommits : consumer.Runs s (t.commit claim) :=
    hclaims.step (i := .commits claim) (if_pos ⟨hclaim, hcomplete⟩) hworker
  let ids := claim.locked.reverse.map EventRow.id
  have hlocked : ∀ own ∈ s.rows, own.id ∈ ids → own.isClaimable consumer.targetService = true := by
    intro own hown hid
    obtain ⟨held, hheld, hid⟩ := List.mem_map.1 hid
    obtain ⟨hmem, hclaimable⟩ := hlocks.held claim hclaim held (List.mem_reverse.1 hheld)
    rw [← hservice, hlocks.row_unique (s := t) hown hmem hid.symm]
    exact hclaimable
  have hheld : ∀ id ∈ ids, (∃ d ∈ (t.commit claim).deliveries, d.worker = consumer.worker ∧ d.event = id) ∧
      ∃ own ∈ (t.commit claim).rows, own.id = id ∧ own.targetService = consumer.targetService ∧
        own.status = .processing := by
    intro id hid
    refine ⟨⟨_, List.mem_append_left _ (List.mem_map_of_mem hid), hworker, rfl⟩, ?_⟩
    obtain ⟨held, hheld, rfl⟩ := List.mem_map.1 hid
    obtain ⟨hmem, hclaimable⟩ := hlocks.held claim hclaim held (List.mem_reverse.1 hheld)
    refine ⟨held.claimed claim.now, List.mem_map.2 ⟨held, hmem, if_pos ?_⟩, rfl, ?_, rfl⟩
    · exact List.contains_iff_mem.2 hid
    · exact (pending_of_claimable hclaimable).1.trans hservice
  have hothers : ∀ own ∈ (t.commit claim).rows, own.targetService = consumer.targetService → own.status = .processing →
      own.id ∈ ids := by
    intro own hown hownservice hprocessing
    obtain ⟨old, hold, rfl⟩ := List.mem_map.1 hown
    by_cases hid : ids.contains old.id = true
    · rw [if_pos hid]
      exact List.contains_iff_mem.1 hid
    · rw [if_neg hid] at hownservice hprocessing
      exact absurd hprocessing (h.processing old hold hownservice)
  have hsame : (t.commit claim).rows.map (attemptsLeft consumer.targetService) =
      s.rows.map (attemptsLeft consumer.targetService) := by
    refine (List.map_map ..).trans (List.map_congr_left fun own hown => ?_)
    dsimp only [Function.comp]
    split
    · next hid =>
      have hpending := (pending_of_claimable (hlocked own hown (List.contains_iff_mem.1 hid))).2.1
      simp [attemptsLeft, EventRow.claimed, hpending, EventStatus.isTerminal]
    · rfl
  have hnodup : ids.Nodup := by
    dsimp only [ids]
    rw [List.map_reverse, List.nodup_reverse]
    exact hlocks.nodup claim hclaim
  have hnone : (t.commit claim).claims = [] := by
    rw [commit]
    exact List.erase_cons_head ..
  obtain ⟨u, hrun, hrested, -, hless⟩ :=
    handle_run ids hnodup (hcommits.reachable h.reachable) hnone h.runs hheld hothers
  refine ⟨u, hcommits.trans hrun, hrested, hsame ▸ hless ?_⟩
  simpa [ids] using hsome

end

/-- Whatever state publishers, workers and crashes have left the queue in, a consumer that is running can go on alone
until every event of its service whose budget is above zero is completed or has failed, whatever its handler answers. An
event whose budget is not above zero, as a 32-bit integer, stays pending in every run and is never delivered. -/
theorem events_settle (h : eventQueues.Reachable s) (consumer : Consumer) (hworker : consumer.worker ∉ s.crashed)
    (hbatch : 0 < consumer.batchSize) :
    (∃ t, consumer.Runs s t ∧ ∀ p ∈ s.publications, p.2.targetService = consumer.targetService → 0 < asI32 p.2.budget →
      ∃ row ∈ t.rows, row.id = p.1 ∧ row.status.isTerminal = true) ∧
    ∀ p ∈ s.publications, asI32 p.2.budget ≤ 0 → ∀ t, eventQueues.Run s t →
      (∃ row ∈ t.rows, row.id = p.1 ∧ row.status = .pending) ∧ ∀ d ∈ t.deliveries, d.event ≠ p.1 := by
  have hbudgets := budgets_of_reachable h
  refine ⟨?_, fun p hp hnone t hrun => ?_⟩
  · have hbatches : ∀ u : EventQueue, u.Rested consumer →
        ¬ (∀ row ∈ u.rows, row.isClaimable consumer.targetService = false) →
        ∃ v, consumer.Runs u v ∧ v.Rested consumer ∧
          (v.rows.map (attemptsLeft consumer.targetService)).sum <
            (u.rows.map (attemptsLeft consumer.targetService)).sum := by
      intro u hrested hnot
      obtain ⟨row, hrow, hclaimable⟩ : ∃ row ∈ u.rows, row.isClaimable consumer.targetService = true := by
        simpa using hnot
      exact batch_run hrested hbatch hrow hclaimable
    obtain ⟨u, hrest, hrested⟩ := rest_run h hworker
    obtain ⟨t, hrun, hrested', hdone⟩ := System.RunIf.of_progress
      (fun u : EventQueue => (u.rows.map (attemptsLeft consumer.targetService)).sum) hbatches hrested
    refine ⟨t, hrest.trans hrun, fun p hp hservice hpositive => ?_⟩
    obtain ⟨row, hrow, hpublication⟩ := hbudgets.published p hp
    obtain ⟨row', hrow', hid, hservice', hmax⟩ := (hrest.trans hrun).invariant
      (P := fun u => ∃ row' ∈ u.rows, row'.id = row.id ∧ row'.targetService = row.targetService ∧
        row'.maxRetries = row.maxRetries) h ⟨row, hrow, rfl, rfl, rfl⟩ fun u action u' _ hu hstep _ => by
      obtain ⟨row', hrow', hid, hservice, hmax⟩ := hu
      obtain ⟨row'', hrow'', hid', hservice', hmax'⟩ := kept_next hstep hrow'
      exact ⟨row'', hrow'', hid'.trans hid, hservice'.trans hservice, hmax'.trans hmax⟩
    have hours : row'.targetService = consumer.targetService :=
      (hservice'.trans hpublication.targetService).trans hservice
    refine ⟨row', hrow', hid.trans hpublication.id, ?_⟩
    cases hstatus : row'.status with
    | completed | failed => rfl
    | processing => exact absurd hstatus (hrested'.processing row' hrow' hours)
    | pending =>
      have hcounted := (budgets_of_reachable hrested'.reachable).counted row' hrow'
      have hunspent := hcounted.unspent ((hmax.trans hpublication.maxRetries) ▸ hpositive) (by rw [hstatus]; rfl)
      have hidle := hdone row' hrow'
      simp [EventRow.isClaimable, hours, hstatus, hunspent] at hidle
  · obtain ⟨row, hrow, hid, -, hmax⟩ := hbudgets.published p hp
    have hnone : row.maxRetries ≤ 0 := hmax ▸ hnone
    have hkept : row ∈ t.rows := hrun.invariant h hrow fun u action u' hu hmem hstep _ =>
      unbudgeted_next (budgets_of_reachable hu) (locks_of_reachable hu) hstep hmem hnone
    have ht := hrun.reachable h
    refine ⟨⟨row, hkept, hid, ((budgets_of_reachable ht).counted row hkept).unclaimed hnone⟩, fun d hd hevent => ?_⟩
    obtain ⟨own, hown, hownid, hpositive⟩ := (budgets_of_reachable ht).delivered d hd
    rw [(locks_of_reachable ht).row_unique hown hkept ((hownid.trans hevent).trans hid.symm)] at hpositive
    omega

/-- A worker has crashed with an event in hand, and another event has no budget. -/
theorem events_settle_crashed : ∃ s : EventQueue, s.publications = [(8, orderPaid (some 0)), (7, orderPaid none)] ∧
    s.crashed = [1] ∧
    ∃ t, Consumer.Runs ⟨2, "billing", 10, ⟨60, 0, by decide, by decide⟩, fun _ => .failed "declined" .retry⟩ s t ∧
      (∃ row ∈ t.rows, row.id = 7 ∧ row.status.isTerminal = true) ∧
      ∃ row ∈ t.rows, row.id = 8 ∧ row.status = .pending := by
  let consumer : Consumer :=
    ⟨2, "billing", 10, ⟨60, 0, by decide, by decide⟩, fun _ => .failed "declined" .retry⟩
  let placed : EventRow := .published 7 (orderPaid none) 0
  have hplay : (System.play next (fun _ _ => True) empty ([.publishes 7 (orderPaid none) 0] ++ claimOne 0 1 0 placed ++
      [.publishes 8 (orderPaid (some 0)) 0, .crashes 1])).any
        (fun s => s.publications = [(8, orderPaid (some 0)), (7, orderPaid none)] ∧ s.crashed = [1]) = true := by
    decide +kernel
  obtain ⟨s, hrun, hend⟩ := (Option.any_eq_true _ _).1 hplay
  obtain ⟨hpublications, hcrashed⟩ := of_decide_eq_true hend
  have hreach : eventQueues.Reachable s := empty_reachable.play (fun _ _ _ h => h) hrun
  obtain ⟨⟨t, hsettles, hterminal⟩, hpending⟩ :=
    events_settle hreach consumer (by rw [hcrashed]; decide) (by decide)
  rw [hpublications] at hterminal hpending
  refine ⟨s, hpublications, hcrashed, t, hsettles, ?_, ?_⟩
  · exact hterminal (7, orderPaid none) (List.mem_cons_of_mem _ List.mem_cons_self) rfl (by decide)
  · exact (hpending (8, orderPaid (some 0)) List.mem_cons_self (by decide) t (hsettles.mono fun _ _ _ => trivial)).1

end EventQueue
end Fusions.Mq
