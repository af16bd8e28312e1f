import Fusions.Mq.Acknowledgements
import Fusions.Mq.Batches

/-! Exclusive ownership of events by workers that acknowledge in time. It holds exactly for the thresholds
that survive the cast to whole seconds. -/
namespace Fusions.Mq
open Fusions.Library

namespace EventQueue
variable {s s' : EventQueue} {action : QueueAction} {row row' : EventRow} {claim : OpenClaim}
  {stuckAfter : Duration}

/-- Every worker acknowledges each event once, less than the threshold after its claim began, and the
reaper goes by this threshold. -/
def Timely (stuckAfter : Duration) (s : EventQueue) : QueueAction → Prop
  | .ticks clock => ∀ d ∈ s.deliveries, d.acknowledged = false →
      (clock - d.claimedAt) * 1000 < stuckAfter.totalNanos
  | .commits claim => claim.locked ≠ [] → (s.clock - claim.now) * 1000 < stuckAfter.totalNanos
  | .acknowledges delivery _ _ => delivery.acknowledged = false
  | .reaps _ threshold _ => threshold = stuckAfter
  | _ => True

instance : (s : EventQueue) → (action : QueueAction) → Decidable (s.Timely stuckAfter action)
  | s, .ticks clock => inferInstanceAs (Decidable (∀ d ∈ s.deliveries, d.acknowledged = false →
      (clock - d.claimedAt) * 1000 < stuckAfter.totalNanos))
  | s, .commits claim => inferInstanceAs (Decidable
      (claim.locked ≠ [] → (s.clock - claim.now) * 1000 < stuckAfter.totalNanos))
  | _, .acknowledges delivery _ _ => inferInstanceAs (Decidable (delivery.acknowledged = false))
  | _, .reaps _ threshold _ => inferInstanceAs (Decidable (threshold = stuckAfter))
  | _, .publishes _ _ _ | _, .begins _ _ _ | _, .selects _ _ | _, .locks _ | _, .rollsBack _ | _, .crashes _ =>
    .isTrue trivial

/-- The states an event can be in: pending, held by a worker, completed, and failed. -/
def places (s : EventQueue) (id : EventId) : List Bool :=
  [s.rows.any fun row => row.id = id ∧ row.status = .pending,
    s.deliveries.any fun d => d.event = id ∧ d.acknowledged = false,
    s.rows.any fun row => row.id = id ∧ row.status = .completed,
    s.rows.any fun row => row.id = id ∧ row.status = .failed]

/-- No event is held twice, none was reaped while it was held, each is in exactly one place, and the
batches are in the order of creation. -/
structure Exclusive (s : EventQueue) : Prop where
  once : s.deliveries.Pairwise fun d d' => d.acknowledged = false → d'.acknowledged = false → d.event ≠ d'.event
  spared : ∀ d ∈ s.deliveries, d.reaped = false
  placed : ∀ p ∈ s.publications, (s.places p.1).count true = 1
  ordered : ∀ batch ∈ s.batches, batch.Pairwise fun event event' => event.createdAt ≤ event'.createdAt

/-- The threshold survives the cast, up to the resolution of the clock. -/
def WholeSeconds (stuckAfter : Duration) : Prop := stuckAfter.secs < 2 ^ 31 ∧ stuckAfter.nanos ≤ 1000

/-- What timely runs keep. -/
structure Kept (stuckAfter : Duration) (s : EventQueue) : Prop where
  owned : s.Owned
  spared : ∀ d ∈ s.deliveries, d.reaped = false
  since : ∀ d ∈ s.deliveries, d.acknowledged = false → ∀ row ∈ s.rows, row.id = d.event →
    row.updatedAt = d.claimedAt
  holder : ∀ row ∈ s.rows, row.status = .processing → ∃ d ∈ s.deliveries, d.event = row.id ∧ d.acknowledged = false
  young : ∀ d ∈ s.deliveries, d.acknowledged = false → (s.clock - d.claimedAt) * 1000 < stuckAfter.totalNanos
  published : ∀ p ∈ s.publications, ∃ row ∈ s.rows, row.id = p.1

namespace Kept

/-- The reaper finds no row. -/
theorem not_zombie (h : s.Kept stuckAfter) (hwhole : WholeSeconds stuckAfter) (hrow : row ∈ s.rows) {now : Int}
    (hnow : now ≤ s.clock) {targetService : String} : row.isZombie targetService stuckAfter now = false := by
  by_contra hzombie
  have hzombie : row.isZombie targetService stuckAfter now = true := eq_true_of_ne_false hzombie
  simp only [EventRow.isZombie, Bool.and_eq_true, decide_eq_true_eq] at hzombie
  obtain ⟨d, hd, hevent, hunacknowledged⟩ := h.holder row hrow hzombie.1.2
  have hsince := h.since d hd hunacknowledged row hrow hevent.symm
  have hyoung := h.young d hd hunacknowledged
  have hold := hzombie.2
  rw [hsince, makeInterval, asI32_of_lt hwhole.1] at hold
  have hnanos := hwhole.2
  unfold Duration.totalNanos at hyoung
  omega

theorem live (h : s.Kept stuckAfter) {d : Delivery} (hd : d ∈ s.deliveries)
    (hunacknowledged : d.acknowledged = false) :
    d.isLive = true := by
  simp [Delivery.isLive, hunacknowledged, h.spared d hd]

/-- The rows that are held are not locked by a claim. -/
private theorem not_locked (h : s.Kept stuckAfter) (hlocks : s.Locks) (hclaim : claim ∈ s.claims) {d : Delivery}
    (hd : d ∈ s.deliveries) (hunacknowledged : d.acknowledged = false) :
    d.event ∉ claim.locked.map EventRow.id := by
  intro hlocked
  obtain ⟨row, hrow, hid, hprocessing⟩ := h.owned.processing d hd (h.live hd hunacknowledged)
  obtain ⟨own, hown, hid'⟩ := List.mem_map.1 hlocked
  obtain ⟨hmem, hclaimable⟩ := hlocks.held claim hclaim own hown
  rw [hlocks.row_unique hrow hmem (hid.trans hid'.symm), (pending_of_claimable hclaimable).2.1] at hprocessing
  cases hprocessing

private theorem published_next (h : s.Kept stuckAfter) (hnext : s.next action = some s') :
    ∀ p ∈ s'.publications, ∃ row ∈ s'.rows, row.id = p.1 := by
  have hkept : ∀ p ∈ s.publications, ∃ row ∈ s'.rows, row.id = p.1 := by
    intro p hp
    obtain ⟨row, hrow, hid⟩ := h.published p hp
    obtain ⟨row', hrow', hmove⟩ := moves_of_mem hnext hrow
    exact ⟨row', hrow', hmove.id_eq.trans hid⟩
  rcases rows_of_next hnext with ⟨id, event, now, -, -, hrows, hpublications⟩ | ⟨hpublications, -⟩
  · rw [hpublications]
    refine List.forall_mem_cons.2 ⟨⟨_, hrows ▸ List.mem_cons_self .., rfl⟩, hkept⟩
  · rw [hpublications]
    exact hkept

private theorem commit (h : s.Kept stuckAfter) (hlocks : s.Locks) (hclaim : claim ∈ s.claims)
    (htime : claim.locked ≠ [] → (s.clock - claim.now) * 1000 < stuckAfter.totalNanos)
    (howned : (s.commit claim).Owned)
    (hpublished : ∀ p ∈ s.publications, ∃ row ∈ (s.commit claim).rows, row.id = p.1) :
    (s.commit claim).Kept stuckAfter := by
  refine ⟨howned, ?_, ?_, ?_, ?_, hpublished⟩
  · intro d hd
    rcases List.mem_append.1 hd with hd | hd
    · obtain ⟨id, -, rfl⟩ := List.mem_map.1 hd
      rfl
    · exact h.spared d hd
  · intro d hd hunacknowledged row' hrow' hid
    obtain ⟨row, hrow, rfl⟩ := List.mem_map.1 hrow'
    rcases List.mem_append.1 hd with hd | hd
    · obtain ⟨id, hlocked, rfl⟩ := List.mem_map.1 hd
      split at hid
      · next hcontains => rw [if_pos hcontains]; rfl
      · next hcontains => exact absurd (List.contains_iff_mem.2 (hid ▸ hlocked)) hcontains
    · split at hid
      · next hcontains =>
        have hlocked : row.id ∈ claim.locked.map EventRow.id := by simpa using hcontains
        exact absurd (hid ▸ hlocked) (h.not_locked hlocks hclaim hd hunacknowledged)
      · next hcontains =>
        rw [if_neg hcontains]
        exact h.since d hd hunacknowledged row hrow hid
  · intro row' hrow' hprocessing
    obtain ⟨row, hrow, rfl⟩ := List.mem_map.1 hrow'
    split at hprocessing
    · next hcontains =>
      rw [if_pos hcontains]
      exact ⟨_, List.mem_append_left _ (List.mem_map.2 ⟨row.id, List.contains_iff_mem.1 hcontains, rfl⟩), rfl, rfl⟩
    · next hcontains =>
      rw [if_neg hcontains]
      obtain ⟨d, hd, hholds⟩ := h.holder row hrow hprocessing
      exact ⟨d, List.mem_append_right _ hd, hholds⟩
  · intro d hd hunacknowledged
    rcases List.mem_append.1 hd with hd | hd
    · obtain ⟨id, hlocked, rfl⟩ := List.mem_map.1 hd
      exact htime fun hnone => by simp [hnone] at hlocked
    · exact h.young d hd hunacknowledged

private theorem acknowledge (h : s.Kept stuckAfter) {delivery : Delivery} (hd : delivery ∈ s.deliveries)
    (htime : delivery.acknowledged = false) (ack : Acknowledgement) (now : Int)
    (howned : (s.acknowledge delivery ack now).Owned)
    (hpublished : ∀ p ∈ s.publications, ∃ row ∈ (s.acknowledge delivery ack now).rows, row.id = p.1) :
    (s.acknowledge delivery ack now).Kept stuckAfter := by
  rcases s.acknowledge_cases delivery ack now with ⟨heq, -⟩ | ⟨heq, -⟩
  · rw [heq]
    exact h
  · rw [heq] at howned hpublished ⊢
    have hother : ∀ d ∈ s.deliveries, (if d = delivery then { d with acknowledged := true } else d).acknowledged = false →
        d ≠ delivery ∧ d.acknowledged = false ∧ d.event ≠ delivery.event := by
      intro d hd' hunacknowledged
      split at hunacknowledged
      · cases hunacknowledged
      · next hne =>
        refine ⟨hne, hunacknowledged, fun hevent => hne ?_⟩
        exact h.owned.unique hd' hd (h.live hd' hunacknowledged) (h.live hd htime) hevent
    refine ⟨howned, ?_, ?_, ?_, ?_, hpublished⟩
    · intro d' hd'
      obtain ⟨d, hd, rfl⟩ := List.mem_map.1 hd'
      split
      · exact h.spared d hd
      · exact h.spared d hd
    · intro d' hd' hunacknowledged row' hrow' hid
      obtain ⟨d, hd, rfl⟩ := List.mem_map.1 hd'
      obtain ⟨row, hrow, rfl⟩ := List.mem_map.1 hrow'
      obtain ⟨hne, hunacknowledged, hevent⟩ := hother d hd hunacknowledged
      rw [if_neg hne] at hid ⊢
      by_cases hown : row.id = delivery.event
      · rw [if_pos (decide_eq_true hown)] at hid
        have hsame : (acknowledged row now ack).id = row.id := by cases ack <;> rfl
        exact absurd (hid.symm.trans (hsame.trans hown)) hevent
      · rw [if_neg (by simpa using hown)] at hid ⊢
        exact h.since d hd hunacknowledged row hrow hid
    · intro row' hrow' hprocessing
      obtain ⟨row, hrow, rfl⟩ := List.mem_map.1 hrow'
      by_cases hown : row.id = delivery.event
      · rw [if_pos (decide_eq_true hown)] at hprocessing
        cases ack with
        | processed => cases hprocessing
        | failed error decision =>
          simp only [acknowledged, EventRow.failed] at hprocessing
          split at hprocessing
          · cases hprocessing
          · cases decision <;> cases hprocessing
      · rw [if_neg (by simpa using hown)] at hprocessing ⊢
        obtain ⟨d, hd, hevent, hunacknowledged⟩ := h.holder row hrow hprocessing
        refine ⟨d, List.mem_map.2 ⟨d, hd, if_neg fun heq => hown ?_⟩, hevent, hunacknowledged⟩
        rw [← hevent, heq]
    · intro d' hd' hunacknowledged
      obtain ⟨d, hd, rfl⟩ := List.mem_map.1 hd'
      obtain ⟨hne, hunacknowledged, -⟩ := hother d hd hunacknowledged
      rw [if_neg hne]
      exact h.young d hd hunacknowledged

/-- A reaper that finds no row changes nothing. -/
private theorem reap_eq {targetService : String} {now : Int}
    (hnone : ∀ row ∈ s.rows, row.isZombie targetService stuckAfter now = false) :
    s.reap targetService stuckAfter now = s := by
  have hrows : (reapZombie s.rows targetService stuckAfter now).1 = s.rows := by
    refine (List.map_congr_left fun row hrow => ?_).trans (List.map_id s.rows)
    rw [if_neg (by simp [hnone row hrow]), id]
  have hdeliveries : (s.deliveries.map fun d =>
      if (s.rows.any fun row => row.id = d.event ∧ row.isZombie targetService stuckAfter now) then
        { d with reaped := true }
      else d) = s.deliveries := by
    refine (List.map_congr_left fun d _ => ?_).trans (List.map_id s.deliveries)
    rw [if_neg (by simpa using fun row hrow _ => hnone row hrow), id]
  rw [reap, hrows, hdeliveries]

theorem next (h : s.Kept stuckAfter) (hwhole : WholeSeconds stuckAfter) (hlocks : s.Locks)
    (hnext : s.next action = some s') (htime : s.Timely stuckAfter action) : s'.Kept stuckAfter := by
  have hpublished := h.published_next hnext
  have hintime : s.InTime action := by
    cases action with
    | acknowledges delivery ack now =>
      simp only [EventQueue.next] at hnext
      split at hnext <;> cases hnext
      next hack => exact h.live hack.2.1 htime
    | _ => exact trivial
  have howned := h.owned.next hlocks hnext hintime
  have hsame : ∀ {t : EventQueue}, t.rows = s.rows → t.deliveries = s.deliveries → t.clock = s.clock →
      t.publications = s.publications → t.Owned → t.Kept stuckAfter := by
    intro t hrows hdeliveries hclock hpublications howned
    refine ⟨howned, ?_, ?_, ?_, ?_, ?_⟩ <;> simp only [hrows, hdeliveries, hclock, hpublications]
    exacts [h.spared, h.since, h.holder, h.young, h.published]
  cases action with
  | ticks clock =>
    simp only [EventQueue.next] at hnext
    split at hnext <;> cases hnext
    exact ⟨howned, h.spared, h.since, h.holder, htime, h.published⟩
  | publishes id event now =>
    simp only [EventQueue.next] at hnext
    split at hnext <;> cases hnext
    next hfresh =>
    have hnew : ∀ row ∈ s.rows, row.id ≠ id := by simpa using hfresh.2
    refine ⟨howned, h.spared, fun d hd hunacknowledged => ?_, ?_, h.young, hpublished⟩
    · refine List.forall_mem_cons.2 ⟨fun hid => ?_, h.since d hd hunacknowledged⟩
      obtain ⟨row, hrow, hid', -⟩ := h.owned.processing d hd (h.live hd hunacknowledged)
      exact absurd (hid'.trans hid.symm) (hnew row hrow)
    · refine List.forall_mem_cons.2 ⟨fun hprocessing => ?_, h.holder⟩
      cases hprocessing
  | commits claim =>
    simp only [EventQueue.next] at hnext
    split at hnext <;> cases hnext
    next hcommits => exact h.commit hlocks hcommits.1 htime howned hpublished
  | acknowledges delivery ack now =>
    simp only [EventQueue.next] at hnext
    split at hnext <;> cases hnext
    next hack =>
    have hpublications : (s.acknowledge delivery ack now).publications = s.publications := by
      rcases s.acknowledge_cases delivery ack now with ⟨heq, -⟩ | ⟨heq, -⟩ <;> rw [heq]
    rw [hpublications] at hpublished
    exact h.acknowledge hack.2.1 htime ack now howned hpublished
  | reaps targetService threshold now =>
    cases htime
    simp only [EventQueue.next] at hnext
    split at hnext <;> cases hnext
    next hnow =>
    rw [reap_eq fun row hrow => h.not_zombie hwhole hrow hnow]
    exact h
  | locks claim =>
    simp only [EventQueue.next] at hnext
    split at hnext
    · obtain ⟨claim', -, rfl⟩ := Option.map_eq_some_iff.1 hnext
      exact hsame rfl rfl rfl rfl howned
    · cases hnext
  | crashes worker =>
    cases hnext
    exact hsame rfl rfl rfl rfl howned
  | begins | selects | rollsBack =>
    simp only [EventQueue.next] at hnext
    split at hnext <;> cases hnext
    exact hsame rfl rfl rfl rfl howned

/-- Each event is in one place. -/
private theorem placed (h : s.Kept stuckAfter) (hlocks : s.Locks) {p : EventId × PublishEvent}
    (hp : p ∈ s.publications) :
    (s.places p.1).count true = 1 := by
  obtain ⟨row, hrow, hid⟩ := h.published p hp
  have hstatus : ∀ status, (s.rows.any fun r => r.id = p.1 ∧ r.status = status) = decide (row.status = status) := by
    intro status
    rw [Bool.eq_iff_iff, List.any_eq_true, decide_eq_true_eq]
    constructor
    · rintro ⟨r, hr, hr'⟩
      obtain ⟨hrid, hrstatus⟩ := of_decide_eq_true hr'
      rw [hlocks.row_unique hrow hr (hid.trans hrid.symm), hrstatus]
    · exact fun heq => ⟨row, hrow, decide_eq_true ⟨hid, heq⟩⟩
  have hheld : (s.deliveries.any fun d => d.event = p.1 ∧ d.acknowledged = false) =
      decide (row.status = .processing) := by
    rw [Bool.eq_iff_iff, List.any_eq_true, decide_eq_true_eq]
    constructor
    · rintro ⟨d, hd, hd'⟩
      obtain ⟨hevent, hunacknowledged⟩ := of_decide_eq_true hd'
      obtain ⟨r, hr, hrid, hprocessing⟩ := h.owned.processing d hd (h.live hd hunacknowledged)
      rw [hlocks.row_unique hrow hr (hid.trans (hevent.symm.trans hrid.symm)), hprocessing]
    · intro hprocessing
      obtain ⟨d, hd, hevent, hunacknowledged⟩ := h.holder row hrow hprocessing
      exact ⟨d, hd, decide_eq_true ⟨hevent.trans hid, hunacknowledged⟩⟩
  rw [places, hstatus, hheld, hstatus, hstatus]
  cases row.status <;> rfl

theorem exclusive (h : s.Kept stuckAfter) (hlocks : s.Locks) (hordered : s.Ordered) : s.Exclusive := by
  refine ⟨?_, h.spared, fun p hp => h.placed hlocks hp, hordered.batches⟩
  refine h.owned.latest.imp_of_mem ?_
  intro d d' _ hd' hlatest _ hunacknowledged
  exact hlatest (h.live hd' hunacknowledged)

end Kept

theorem kept_of_reachable (hwhole : WholeSeconds stuckAfter) (h : eventQueues.ReachableIf (Timely stuckAfter) s) :
    s.Kept stuckAfter := by
  refine h.invariant (P := Kept stuckAfter) ?_ fun s action s' hs hkept hstep htime =>
    hkept.next hwhole (locks_of_reachable hs) hstep htime
  rintro s ⟨hrows, -, hpublications, hdeliveries, -⟩
  refine ⟨⟨?_, ?_⟩, ?_, ?_, ?_, ?_, ?_⟩ <;> simp [hrows, hpublications, hdeliveries]

/-- The steps of a claim at one instant, and what comes before it. -/
private def instant (s : EventQueue) : QueueAction → Bool
  | .publishes _ _ _ | .begins _ _ _ | .selects _ _ | .locks _ => true
  | .commits claim => s.clock = claim.now
  | _ => false

/-- An age above the threshold that the cast leaves, and below the threshold itself. -/
private theorem exists_lost (hlost : ¬ WholeSeconds stuckAfter) : ∃ clock : Int, 0 ≤ clock ∧
    makeInterval (asI32 stuckAfter.secs) < clock ∧ clock * 1000 < stuckAfter.totalNanos := by
  refine ⟨max (makeInterval (asI32 stuckAfter.secs) + 1) 0, Int.le_max_right _ _, ?_, ?_⟩
  · omega
  · have hcast : asI32 stuckAfter.secs < 2 ^ 31 := Int.bmod_lt (by decide)
    unfold Duration.totalNanos makeInterval
    by_cases hsecs : stuckAfter.secs < 2 ^ 31
    · have hnanos : 1000 < stuckAfter.nanos := Nat.not_le.1 fun hle => hlost ⟨hsecs, hle⟩
      rw [asI32_of_lt hsecs]
      omega
    · omega

/-- A threshold that loses by the cast lets the reaper take an event back from a worker that is in time. -/
private theorem reaped_in_time (hlost : ¬ WholeSeconds stuckAfter) :
    ∃ s, eventQueues.ReachableIf (Timely stuckAfter) s ∧ ∃ d ∈ s.deliveries, d.reaped = true := by
  let placed : EventRow := .published 7 (orderPaid none) 0
  let held : EventQueue := ⟨0, [placed.claimed 0], [], 1, [], [(7, orderPaid none)], [⟨0, 1, 7, 0, false, false⟩],
    [[placed.toClaimed]]⟩
  have hplay : System.play next (fun s action => s.instant action = true) empty
      ([.publishes 7 (orderPaid none) 0] ++ claimOne 0 1 0 placed) = some held := by decide +kernel
  obtain ⟨clock, hnow, hold, hyoung⟩ := exists_lost hlost
  have hheld : eventQueues.ReachableIf (Timely stuckAfter) held := by
    have hinit : eventQueues.ReachableIf (fun s action => s.instant action = true) empty := empty_reachable
    refine (hinit.play (fun _ _ _ h => h) hplay).mono fun s action hinstant => ?_
    cases action with
    | commits claim =>
      have hsame : s.clock = claim.now := of_decide_eq_true hinstant
      intro _
      rw [hsame]
      omega
    | publishes | begins | selects | locks => exact trivial
    | ticks | rollsBack | acknowledges | reaps | crashes => cases hinstant
  have hticks : held.next (.ticks clock) = some { held with clock := clock } := if_pos hnow
  have htime : held.Timely stuckAfter (.ticks clock) := by
    intro d hd _
    obtain rfl := List.mem_singleton.1 hd
    rwa [Int.sub_zero]
  have hreaps : EventQueue.next { held with clock := clock } (.reaps "billing" stuckAfter clock) =
      some ({ held with clock := clock }.reap "billing" stuckAfter clock) := if_pos (Int.le_refl _)
  refine ⟨_, (hheld.step hticks htime).step hreaps rfl, ⟨0, 1, 7, 0, false, true⟩, ?_, rfl⟩
  refine List.mem_map.2 ⟨⟨0, 1, 7, 0, false, false⟩, List.mem_singleton_self _, if_pos ?_⟩
  refine List.any_eq_true.2 ⟨placed.claimed 0, List.mem_singleton_self _, decide_eq_true ⟨rfl, ?_⟩⟩
  have hzombie : (0 : Int) < clock - makeInterval (asI32 stuckAfter.secs) := by omega
  simpa [EventRow.isZombie, EventRow.claimed, placed, EventRow.published, orderPaid] using hzombie

/-- Timely workers own their events alone, for the thresholds that are whole seconds up to `i32::MAX` and for
no other. -/
theorem exclusive_iff (stuckAfter : Duration) :
    (∀ s, eventQueues.ReachableIf (Timely stuckAfter) s → s.Exclusive) ↔ WholeSeconds stuckAfter := by
  constructor
  · intro h
    by_contra hlost
    obtain ⟨s, hs, d, hd, hreaped⟩ := reaped_in_time hlost
    rw [(h s hs).spared d hd] at hreaped
    cases hreaped
  · intro hwhole s hs
    exact (kept_of_reachable hwhole hs).exclusive (locks_of_reachable hs) (ordered_of_reachable hs)

/-- With a threshold of 1.5 seconds two workers hold one event after 1.2 seconds. -/
theorem held_twice : ∃ s : EventQueue, eventQueues.ReachableIf (Timely ⟨1, 500000000, by decide, by decide⟩) s ∧
    s.clock = 1200000 ∧ s.deliveries = [⟨1, 2, 7, 1200000, false, false⟩, ⟨0, 1, 7, 0, false, true⟩] ∧
      ¬ s.Exclusive := by
  let placed : EventRow := .published 7 (orderPaid none) 0
  let returned : EventRow := (placed.claimed 0).reaped 1200000
  have hplay : (System.play next (Timely ⟨1, 500000000, by decide, by decide⟩) empty
      ([.publishes 7 (orderPaid none) 0] ++ claimOne 0 1 0 placed ++ [.ticks 1200000,
        .reaps "billing" ⟨1, 500000000, by decide, by decide⟩ 1200000] ++ claimOne 1 2 1200000 returned)).any
          (fun s => s.clock = 1200000 ∧
            s.deliveries = [⟨1, 2, 7, 1200000, false, false⟩, ⟨0, 1, 7, 0, false, true⟩]) =
            true := by decide +kernel
  obtain ⟨s, hrun, hend⟩ := (Option.any_eq_true _ _).1 hplay
  have hstate := of_decide_eq_true hend
  refine ⟨s, empty_reachable.play (fun _ _ _ h => h) hrun, hstate.1, hstate.2, fun hexclusive => ?_⟩
  have honce := hexclusive.once
  rw [hstate.2] at honce
  exact (List.pairwise_cons.1 honce).1 _ (List.mem_singleton_self _) rfl rfl rfl

end EventQueue
end Fusions.Mq
