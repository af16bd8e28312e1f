import Fusions.Hetuflow.Service.Simulation
import Fusions.Hetuflow.Service.Script

/-! The replay contract: where the drift report of a reachable instance is empty. -/
namespace Fusions.Hetuflow
open Fusions.Library

namespace DefinitionSnapshot

/-- No RETURNED transition: no signal can hand the instance back. -/
def NoReturned (s : DefinitionSnapshot) : Prop := ∀ t ∈ s.transitions, t.onSignal ≠ .returned

/-- No parallel split, for-each or parallel join, and no RETURNED transition. -/
def Linear (s : DefinitionSnapshot) : Prop :=
  (∀ n ∈ s.nodes, n.kind ≠ .parallelSplit ∧ n.kind ≠ .forEach ∧ n.kind ≠ .parallelJoin) ∧ s.NoReturned

instance (s : DefinitionSnapshot) : Decidable s.NoReturned :=
  inferInstanceAs (Decidable (∀ t ∈ s.transitions, t.onSignal ≠ .returned))

instance (s : DefinitionSnapshot) : Decidable s.Linear := inferInstanceAs (Decidable (_ ∧ _))

end DefinitionSnapshot

section
variable {svc : WorkflowService} {store : Store} {r : InstanceRows}

/-- A linear flow never drifts. -/
theorem linear_replay (h : (engine svc).Reachable store) (hr : r ∈ store) (hlinear : r.snapshot.Linear) :
    diffProjection (foldEvents r.snapshot (r.events.map EventRow.intoRecord)) r.inst
      (r.models r.activities) = [] := by
  have hsim : r.snapshot.Linear → r.Sim ∧ r.inst.status ≠ .returnedWaiting := by
    refine rows_invariant (P := fun r => r.snapshot.Linear → r.Sim ∧ r.inst.status ≠ .returnedWaiting)
      (fun _ _ _ _ hstarted _ => hstarted.sim) (fun env call r r' w hP heffect hlinear => ?_) h r hr
    rw [(heffect.keeps w).evolves.snapshot] at hlinear
    obtain ⟨hsim, hwaiting⟩ := hP hlinear
    rcases heffect.sim w hsim hwaiting with hdone | ⟨-, n, hn, hjoin⟩ | ⟨-, t, ht, hret⟩
    · exact hdone
    · exact absurd hjoin (hlinear.1 n hn).2.2
    · exact absurd hret (hlinear.2 t ht)
  exact (hsim hlinear).1.drift_eq_nil ((wellFormed_of_reachable h).rows r hr).ids_nodup

end

/-- Two approvals in a row. -/
def twoApprovals : Store :=
  played (Sample.service "c2bc3ade0e1d92260cb93c456d1a07b4bac07dcf8fbc5f9aa0b484b5c0504300") 9
    [Sample.start (Sample.definition [Sample.approval "a", Sample.approval "b"]
      [Sample.approved "a" "b", Sample.approved "b" "end"]) none,
     Sample.approve (Sample.uuid 0 1), Sample.approve (Sample.uuid 1 0)]

theorem linear_replay_two_approvals : (twoApprovals.map fun r => r.inst.status) = [.completed] ∧
    ∀ r ∈ twoApprovals, diffProjection (foldEvents r.snapshot (r.events.map EventRow.intoRecord)) r.inst
      (r.models r.activities) = [] := by
  have hlinear : ∀ r ∈ twoApprovals, r.snapshot.Linear := by decide
  exact ⟨by decide, fun r hr => linear_replay (reachable_played ..) hr (hlinear r hr)⟩

section
variable {svc : WorkflowService} {store : Store} {r : InstanceRows}

/-- Without RETURNED edges an instance does not drift as long as no call stalls a branch of it. -/
theorem fan_out_replay {id : Uuid}
    (h : (engine svc).ReachableIf (OnInstance id fun r _ r' => ¬ Stalls r r') store) (hr : r ∈ store)
    (hid : r.inst.id = id) (hreturned : r.snapshot.NoReturned) :
    diffProjection (foldEvents r.snapshot (r.events.map EventRow.intoRecord)) r.inst
      (r.models r.activities) = [] := by
  have hsim : r.snapshot.NoReturned → r.Sim ∧ r.inst.status ≠ .returnedWaiting := by
    refine instance_invariant (P := fun r => r.snapshot.NoReturned → r.Sim ∧ r.inst.status ≠ .returnedWaiting)
      (fun _ _ _ _ hstarted _ => hstarted.sim) (fun env call r r' w hP heffect hok hreturned => ?_) h r hr hid
    rw [(heffect.keeps w).evolves.snapshot] at hreturned
    obtain ⟨hsim, hwaiting⟩ := hP hreturned
    rcases heffect.sim w hsim hwaiting with hdone | ⟨hstall, -⟩ | ⟨-, t, ht, hret⟩
    · exact hdone
    · exact absurd hstall hok
    · exact absurd hret (hreturned t ht)
  exact (hsim hreturned).1.drift_eq_nil ((wellFormed_of_reachable h).rows r hr).ids_nodup

end

/-- Two approvals into a join that no split leads to. -/
def unsplitJoin : Store :=
  played (Sample.service "efa4d04552c1a7a5a5586b9d1a706bc05433964f8859fa46be6ed5268fc7a03f") 9
    [Sample.start (Sample.definition [Sample.approval "x", Sample.approval "y", Sample.node "j" (.parallelJoin .waitAll)]
      [Sample.approved "x" "j", Sample.approved "y" "j", Sample.approved "j" "end"]) none,
     Sample.approve (Sample.uuid 0 1)]

/-- The first approval waits at the join: the live instance has no current activity, the replayed one has. -/
theorem fan_out_replay_stalled : (engine (Sample.service
      "efa4d04552c1a7a5a5586b9d1a706bc05433964f8859fa46be6ed5268fc7a03f")).Reachable unsplitJoin ∧
    ∃ r ∈ unsplitJoin, r.snapshot.NoReturned ∧ (∃ n ∈ r.snapshot.nodes, n.kind = .parallelJoin) ∧
      diffProjection (foldEvents r.snapshot (r.events.map EventRow.intoRecord)) r.inst
        (r.models r.activities) ≠ [] :=
  ⟨reachable_played .., by decide⟩

/-- A split into two approvals, one of which is given. -/
def forkedSteps : List Step :=
  [Sample.start (Sample.definition [Sample.approval "a", Sample.node "s" (.parallelSplit ["x", "y"]),
      Sample.approval "x", Sample.approval "y", Sample.node "j" (.parallelJoin .waitAll)]
      [Sample.approved "a" "s", Sample.approved "x" "j", Sample.approved "y" "j", Sample.approved "j" "end"]) none,
    Sample.approve (Sample.uuid 0 1), Sample.approve (Sample.uuid 1 0)]

theorem fan_out_replay_forked :
    let svc := Sample.service "e279cc01486c9312b061ffcb92a891438ccc2ab2182b09582072aef9e3d8d9df"
    ((played svc 9 forkedSteps).map fun r => r.activities.map ActivityRow.status) =
        [[.completed, .completed, .active]] ∧
      ∀ r ∈ played svc 9 forkedSteps, r.inst.id = Sample.uuid 0 0 →
        diffProjection (foldEvents r.snapshot (r.events.map EventRow.intoRecord)) r.inst
          (r.models r.activities) = [] := by
  intro svc
  have hrun : (engine svc).ReachableIf (OnInstance (Sample.uuid 0 0) fun r _ r' => ¬ Stalls r r')
      (played svc 9 forkedSteps) := reachableIf_played 9 forkedSteps (by decide)
  have hreturned : ∀ r ∈ played svc 9 forkedSteps, r.snapshot.NoReturned := by decide
  exact ⟨by decide, fun r hr hid => fan_out_replay hrun hr hid (hreturned r hr)⟩

/-- The id of the activity an event adds to the replayed projection. -/
def pushedId (ev : EventRecord) : Option String :=
  match ev.eventType with
  | .activityScheduled => pstr ev.payload "activity_id"
  | .returnedToRework => some (reworkId ev.payload)
  | _ => none

private theorem updateActivity_ids (p : ReplayedProjection) (id : String)
    {f : ReplayedActivity → ReplayedActivity} (hf : ∀ a, (f a).id = a.id) :
    (p.updateActivity id f).activities.map ReplayedActivity.id = p.activities.map ReplayedActivity.id := by
  simp only [ReplayedProjection.updateActivity]
  induction p.activities with
  | nil => rfl
  | cons a as ih =>
    by_cases h : (a.id == id) = true
    · simp [modifyFirst, h, hf]
    · simp [modifyFirst, h, ih]

private theorem foldEvent_ids (snapshot : DefinitionSnapshot) (p : ReplayedProjection) (ev : EventRecord) :
    (foldEvent snapshot p ev).activities.map ReplayedActivity.id =
      p.activities.map ReplayedActivity.id ++ (pushedId ev).toList := by
  unfold foldEvent pushedId
  cases ht : ev.eventType with
  | activityScheduled =>
    simp only [ReplayedProjection.scheduleActivity]
    cases pstr ev.payload "activity_id" <;> simp [ReplayedActivity.scheduled]
  | returnedToRework => simp [ReplayedProjection.returnToRework, ReplayedActivity.scheduled]
  | signalReceived =>
    simp only [ReplayedProjection.receiveSignal]
    split
    · simp
    · simpa using updateActivity_ids p _ fun a => a.signalled_id ..
  | activityCompleted =>
    have hid : ∀ a : ReplayedActivity, (a.completedBy ev.payload ev.createdAt).id = a.id := by
      intro a
      unfold ReplayedActivity.completedBy
      dsimp only
      split <;> rfl
    simpa using updateActivity_ids p _ hid
  | activitySkipped =>
    simp only [ReplayedProjection.skipActivities]
    split
    · next id _ =>
      have hskip : ∀ a : ReplayedActivity, a.skip.id = a.id := fun _ => rfl
      simpa using updateActivity_ids p id hskip
    · rw [Option.toList_none, List.append_nil]
      apply map_updateWhere
      exact fun _ => rfl
  | approvalEscalated =>
    simp only [ReplayedProjection.escalate]
    split
    · next id role _ _ =>
      have hrole : ∀ a : ReplayedActivity, { a with assigneeRole := some role }.id = a.id := fun _ => rfl
      simpa using updateActivity_ids p id hrole
    · simp
  | _ => simp

/-- The replayed activities are the ones the events push, in order. -/
theorem foldEvents_ids (snapshot : DefinitionSnapshot) (log : List EventRecord) :
    (foldEvents snapshot log).activities.map ReplayedActivity.id = log.filterMap pushedId := by
  have hfold : ∀ (p : ReplayedProjection), (log.foldl (foldEvent snapshot) p).activities.map
      ReplayedActivity.id = p.activities.map ReplayedActivity.id ++ log.filterMap pushedId := by
    induction log with
    | nil => simp
    | cons ev log ih =>
      intro p
      rw [List.foldl_cons, ih, foldEvent_ids, List.append_assoc]
      cases hp : pushedId ev <;> simp [hp]
  simpa [foldEvents, ReplayedProjection.initial] using hfold .initial

namespace InstanceRows

/-- No parallel split, for-each or parallel join has been entered. -/
def OnPath (r : InstanceRows) : Prop :=
  ∀ e ∈ r.events, e.eventType ≠ .parallelSplitScheduled ∧ e.eventType ≠ .forEachFannedOut ∧
    e.eventType ≠ .branchReachedJoin

/-- No rework has been committed. -/
def NeverReworked (r : InstanceRows) : Prop := ∀ e ∈ r.events, e.eventType ≠ .returnedToRework

instance (r : InstanceRows) : Decidable r.OnPath :=
  inferInstanceAs (Decidable (∀ e ∈ r.events, _ ∧ _))

instance (r : InstanceRows) : Decidable r.NeverReworked := inferInstanceAs (Decidable (∀ e ∈ r.events, _))

/-- A rework is replayed to two activities of one id. -/
theorem Logged.not_nodup {r : InstanceRows} (h : r.Logged) (hrework : ¬ r.NeverReworked) :
    ¬ (r.replay.activities.map ReplayedActivity.id).Nodup := by
  obtain ⟨e, he, htype⟩ : ∃ e ∈ r.events, e.eventType = .returnedToRework := by
    simpa [NeverReworked] using hrework
  obtain ⟨pre, post, hevents⟩ := List.append_of_mem he
  obtain ⟨pre', s, id, rfl, hbooked, hid⟩ := scheduled_of_rework (hevents ▸ h.entries) htype
  have hs : pushedId s.intoRecord = some id := by
    obtain ⟨b, hb, rfl⟩ := Option.map_eq_some_iff.1 hbooked
    have hst := EventRow.type_of_booking (by rw [hb]; rfl)
    simp only [EventRow.booking, hst, if_pos, Option.bind_eq_bind, Option.bind_eq_some_iff] at hb
    obtain ⟨id, hsid, node, -, round, -, hb⟩ := hb
    cases hb
    simpa [pushedId, EventRow.intoRecord, hst, EventRow.str] using hsid
  have he : pushedId e.intoRecord = some id := by
    have : pstr e.payload "activity_id" = some id := hid
    simp [pushedId, reworkId, EventRow.intoRecord, htype, this]
  rw [replay, foldEvents_ids, hevents]
  simp [hs, he, List.filterMap_append, List.nodup_append]

end InstanceRows

section
variable {svc : WorkflowService} {store : Store} {r : InstanceRows}

private theorem sim_of_never_reworked (h : (engine svc).Reachable store) (hr : r ∈ store) (hpath : r.OnPath)
    (hnever : r.NeverReworked) : r.Sim := by
  refine (rows_invariant (P := fun r => r.OnPath → r.NeverReworked → r.Sim ∧ r.inst.status ≠ .returnedWaiting)
    (fun _ _ _ _ hstarted _ _ => hstarted.sim) (fun env call r r' w hP heffect hpath hnever => ?_) h r hr hpath
      hnever).1
  obtain ⟨new, hevents, -⟩ := heffect.writes.entries
  have hold : ∀ e ∈ r.events, e ∈ r'.events := fun e he => by rw [hevents]; exact List.mem_append_left _ he
  obtain ⟨hsim, hwaiting⟩ := hP (fun e he => hpath e (hold e he)) fun e he => hnever e (hold e he)
  rcases heffect.sim w hsim hwaiting with hdone | ⟨⟨hlast, -, -⟩, -⟩ | ⟨hlast, -⟩
  · exact hdone
  · obtain ⟨e, he, hreached⟩ := Option.map_eq_some_iff.1 hlast
    exact absurd hreached (hpath e (List.mem_of_getLast? he)).2.2
  · obtain ⟨e, he, hrework⟩ := Option.map_eq_some_iff.1 hlast
    exact absurd hrework (hnever e (List.mem_of_getLast? he))

/-- Off splits and joins, the log replays to the live activities, each once, and to an empty drift
report, exactly as long as no rework has been committed. -/
theorem rework_replay_iff (h : (engine svc).Reachable store) (hr : r ∈ store) (hpath : r.OnPath) :
    (((foldEvents r.snapshot (r.events.map EventRow.intoRecord)).activities.map ReplayedActivity.id).Nodup ∧
      (∀ id, id ∈ (foldEvents r.snapshot (r.events.map EventRow.intoRecord)).activities.map ReplayedActivity.id ↔
        id ∈ r.activities.map ActivityRow.id) ∧
      diffProjection (foldEvents r.snapshot (r.events.map EventRow.intoRecord)) r.inst
        (r.models r.activities) = []) ↔ r.NeverReworked := by
  constructor
  · rintro ⟨hnodup, -, -⟩
    exact Decidable.of_not_not fun hrework => (logged_of_reachable h r hr).not_nodup hrework hnodup
  · intro hnever
    have hsim := sim_of_never_reworked h hr hpath hnever
    have hnodup := ((wellFormed_of_reachable h).rows r hr).ids_nodup
    have hids : r.replay.activities.map ReplayedActivity.id = r.activities.map ActivityRow.id := by
      rw [hsim.replay_eq]
      simp [InstanceRows.project, ActivityRow.project]
    refine ⟨?_, fun id => ?_, hsim.drift_eq_nil hnodup⟩
    · show (r.replay.activities.map ReplayedActivity.id).Nodup
      rw [hids]
      exact hnodup
    · show id ∈ r.replay.activities.map ReplayedActivity.id ↔ _
      rw [hids]

end

/-- Two approvals, the second of which hands back to the first, which is approved again. -/
def reworked : Store :=
  played (Sample.service "7a6d27b815241864571160d73edf780b97bb8792a8a90ff64f336e175813388e") 9
    [Sample.start (Sample.definition [Sample.approval "a", Sample.approval "b"]
      [Sample.approved "a" "b", Sample.approved "b" "end", ⟨"b", "a", .returned⟩]) none,
     Sample.approve (Sample.uuid 0 1), Sample.signal .returned none (Sample.uuid 1 0),
     Sample.approve (Sample.uuid 2 0)]

/-- The rework target is replayed twice, and one of the two stays active. -/
theorem rework_replay_twice : (engine (Sample.service
      "7a6d27b815241864571160d73edf780b97bb8792a8a90ff64f336e175813388e")).Reachable reworked ∧
    ∃ r ∈ reworked, r.OnPath ∧
      ¬ ((foldEvents r.snapshot (r.events.map EventRow.intoRecord)).activities.map ReplayedActivity.id).Nodup ∧
      diffProjection (foldEvents r.snapshot (r.events.map EventRow.intoRecord)) r.inst
        (r.models r.activities) ≠ [] :=
  ⟨reachable_played .., by decide⟩

theorem rework_replay_iff_reworked : reworked.length = 1 ∧ ∀ r ∈ reworked,
    ¬ (((foldEvents r.snapshot (r.events.map EventRow.intoRecord)).activities.map ReplayedActivity.id).Nodup ∧
      (∀ id, id ∈ (foldEvents r.snapshot (r.events.map EventRow.intoRecord)).activities.map ReplayedActivity.id ↔
        id ∈ r.activities.map ActivityRow.id) ∧
      diffProjection (foldEvents r.snapshot (r.events.map EventRow.intoRecord)) r.inst
        (r.models r.activities) = []) := by
  have hpath : ∀ r ∈ reworked, r.OnPath ∧ ¬ r.NeverReworked := by decide
  refine ⟨by decide, fun r hr hcontract => ?_⟩
  exact (hpath r hr).2 ((rework_replay_iff (reachable_played ..) hr (hpath r hr).1).1 hcontract)

end Fusions.Hetuflow
