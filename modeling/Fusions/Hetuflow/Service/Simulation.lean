import Fusions.Hetuflow.Service.Log

/-! The event reducer simulates the service: what the log replays to is what the live rows hold. -/
namespace Fusions.Hetuflow
open Fusions.Library Program

/-- The replayed activity that a live row should replay to. -/
def ActivityRow.project (a : ActivityRow) : ReplayedActivity where
  id := a.id
  activityDefinitionId := a.activityDefinitionId
  activityType := a.activityType
  status := a.status
  assigneeRole := a.assigneeRole
  assigneeId := a.assigneeId.map toString
  result := a.result.map activityResultToStr
  reviewNotes := a.reviewNotes
  reviewedBy := a.reviewedBy.map toString
  reviewedAt := a.reviewedAt
  round := a.round

namespace InstanceRows
variable (r : InstanceRows)

/-- The projection rebuilt from the log. -/
def replay : ReplayedProjection := foldEvents r.snapshot (r.events.map EventRow.intoRecord)

/-- The projection as the live rows hold it. -/
def project : ReplayedProjection where
  instanceRow := {
    status := r.inst.status
    currentActivityId := r.inst.currentActivityId
    result := r.inst.result
    startedAt := r.inst.startedAt
    completedAt := r.inst.completedAt }
  activities := r.activities.map ActivityRow.project

/-- The drift report of the live rows against the log. -/
def drift : List String := diffProjection r.replay r.inst (r.models r.activities)

/-- The log replays to the live rows. -/
def Sim : Prop := r.replay = r.project

@[simp] theorem replay_log (now : Time) (t : EventType) (p : Json) (k : Option String) :
    (r.log now t p k).replay = foldEvent r.snapshot r.replay ⟨r.nextSeq, t, p, now⟩ := by
  simp [replay, log, appendEvent, EventRow.intoRecord]

@[simp] theorem replay_updateInstance (f : WorkflowInstance → WorkflowInstance) :
    (r.updateInstance f).replay = r.replay := rfl

@[simp] theorem replay_updateActivities (p : ActivityRow → Bool) (f : ActivityRow → ActivityRow) :
    (r.updateActivities p f).replay = r.replay := rfl

@[simp] theorem replay_updateTimers (p : TimerRow → Bool) (s : TimerStatus) :
    (r.updateTimers p s).replay = r.replay := rfl

@[simp] theorem replay_enqueueOutbox (o : OutboxRow) : (r.enqueueOutbox o).replay = r.replay := by
  unfold enqueueOutbox
  split <;> rfl

@[simp] theorem project_log (now : Time) (t : EventType) (p : Json) (k : Option String) :
    (r.log now t p k).project = r.project := rfl

@[simp] theorem project_updateTimers (p : TimerRow → Bool) (s : TimerStatus) :
    (r.updateTimers p s).project = r.project := rfl

@[simp] theorem enqueueOutbox_inst (o : OutboxRow) : (r.enqueueOutbox o).inst = r.inst := by
  unfold enqueueOutbox
  split <;> rfl

@[simp] theorem project_enqueueOutbox (o : OutboxRow) : (r.enqueueOutbox o).project = r.project := by
  unfold enqueueOutbox
  split <;> rfl

end InstanceRows

/-- `verify_projection` reports the drift. -/
theorem returns_verifyProjection {env : Env} {tx tx' : Tx} {scope : ScopeFilter} {id : Uuid}
    {v : ProjectionVerification}
    (h : Returns (exec env) (WorkflowService.verifyProjection scope id) tx v tx') :
    tx' = tx ∧ v = ⟨id, tx.rows.events.length, tx.rows.drift.isEmpty, tx.rows.drift⟩ := by
  unfold WorkflowService.verifyProjection at h
  rw [returns_bind] at h
  obtain ⟨found, t₁, hload, h⟩ := h
  obtain ⟨hfound, rfl⟩ := (returns_exec rfl _).1 hload
  split at h
  · exact absurd h (returns_fail _ _ _ _ _)
  next inst =>
  obtain rfl : t₁.rows.inst = inst := by
    split at hfound
    · exact (Option.some.inj hfound).symm
    · cases hfound
  simp only [returns_bind, returns_pure] at h
  obtain ⟨snapshot, t₂, hsnap, events, t₃, hevents, rows, t₄, hlist, rfl, rfl⟩ := h
  obtain ⟨rfl, rfl⟩ := (returns_exec rfl _).1 hsnap
  obtain ⟨rfl, rfl⟩ := (returns_exec rfl _).1 hevents
  obtain ⟨rfl, rfl⟩ := (returns_exec rfl _).1 hlist
  exact ⟨rfl, by simp [InstanceRows.drift, InstanceRows.replay]⟩

section
variable {r : InstanceRows}

private theorem diffActivity_project (a : ActivityRow) (id : Uuid) :
    diffActivity a.project (a.intoModel id) = [] := by
  simp [diffActivity, ActivityRow.project, ActivityRow.intoModel]

private theorem liveById_model {rows : List ActivityRow} {id : Uuid} {a : ActivityRow}
    (hnd : (rows.map ActivityRow.id).Nodup) (ha : a ∈ rows) :
    liveById (rows.map fun a => a.intoModel id) a.id = some (a.intoModel id) := by
  unfold liveById
  rw [← List.map_reverse, List.find?_map, Option.map_eq_some_iff]
  refine ⟨a, ?_, rfl⟩
  have hnd : (rows.reverse.map ActivityRow.id).Pairwise (· ≠ ·) := by
    rw [List.map_reverse, List.pairwise_reverse]
    exact hnd.imp Ne.symm
  have ha : a ∈ rows.reverse := List.mem_reverse.2 ha
  generalize rows.reverse = l at hnd ha
  induction l with
  | nil => cases ha
  | cons x xs ih =>
    rw [List.map_cons, List.pairwise_cons] at hnd
    rcases List.mem_cons.1 ha with rfl | hxs
    · simp [ActivityRow.intoModel]
    · have hne : x.id ≠ a.id := hnd.1 _ (List.mem_map_of_mem hxs)
      rw [List.find?_cons_of_neg (by simpa [ActivityRow.intoModel] using hne)]
      exact ih hnd.2 hxs

/-- A simulated state shows no drift. -/
theorem InstanceRows.Sim.drift_eq_nil (h : r.Sim) (hnd : (r.activities.map ActivityRow.id).Nodup) :
    r.drift = [] := by
  have hactivities : r.project.activities.flatMap (diffReplayed (r.models r.activities)) = [] := by
    rw [List.flatMap_eq_nil_iff]
    intro ra hra
    obtain ⟨a, ha, rfl⟩ := List.mem_map.1 hra
    have hlive : liveById (r.models r.activities) a.project.id = some (a.intoModel r.inst.id) :=
      liveById_model hnd ha
    rw [diffReplayed, hlive]
    exact diffActivity_project a _
  have hlive : (r.models r.activities).filter
      (fun la => !r.project.activities.any fun ra => ra.id == la.id) = [] := by
    rw [List.filter_eq_nil_iff]
    intro la hla
    obtain ⟨a, ha, rfl⟩ := List.mem_map.1 hla
    have hany : (r.project.activities.any fun ra => ra.id == (a.intoModel r.inst.id).id) = true :=
      List.any_eq_true.2 ⟨a.project, List.mem_map_of_mem ha, beq_self_eq_true a.id⟩
    simp [hany]
  unfold drift diffProjection
  rw [h, hactivities, hlive]
  simp [project]

end

namespace InstanceRows.Sim
variable {r r' : InstanceRows} {env : Env}

theorem replay_eq (h : r.Sim) : r.replay = r.project := h

theorem log_neutral (h : r.Sim) {now : Time} {t : EventType} {p : Json} {k : Option String}
    (ht : t.isNeutral = true) : (r.log now t p k).Sim := by
  show (r.log now t p k).replay = _
  rw [replay_log, foldEvent_neutral _ _ ht, h.replay_eq, project_log]

theorem enqueueOutbox (h : r.Sim) (o : OutboxRow) : (r.enqueueOutbox o).Sim := by
  show InstanceRows.replay _ = _
  rw [replay_enqueueOutbox, project_enqueueOutbox]
  exact h

theorem timerFired (h : r.Sim) (now : Time) (t : TimerRow) (id : Uuid) (nodeId : String) :
    (r.timerFired now t id nodeId).Sim :=
  log_neutral (r := r.fireTimer t.id) h rfl

theorem passMerges (h : r.Sim) (now : Time) (f : String) (n : Int) (ms : List String) :
    (r.passMerges now f n ms).Sim :=
  InstanceRows.passMerges_induction ms h fun _ _ hr => hr.log_neutral rfl

theorem fanOutRows (h : r.Sim) (source : ActivityInstance) (round : Int) (trace : ResolveTrace)
    (targets : List ParallelTarget) : (fanOutRows env source round trace targets r).Sim := by
  have hmerges := h.passMerges env.now source.activityDefinitionId round trace.mergesPassed
  have hclear : (r.passMerges env.now source.activityDefinitionId round trace.mergesPassed).clearCurrent.replay
      = (r.passMerges env.now source.activityDefinitionId round trace.mergesPassed).project := hmerges
  unfold Hetuflow.fanOutRows fanOutMarker
  cases trace.forEachFanOut <;>
  · show InstanceRows.replay _ = _
    simp only [replay_log, hclear, foldEvent, project_log]
    rfl

theorem finish (h : r.Sim) (now : Time) (result : WorkflowResult) :
    ((r.finish now result).log now .completed (completedPayload result) none).Sim := by
  have hfinish : (r.finish now result).replay = r.project := h
  have hresult : (pstr (completedPayload result) "result").bind WorkflowResult.fromDb = some result := by
    simp [completedPayload, pstr, Json.get]
  show InstanceRows.replay _ = _
  simp only [replay_log, hfinish, foldEvent, hresult, project_log]
  rfl

theorem errorOut (h : r.Sim) (hactive : r.inst.status = .active) (now : Time) (p : Json) :
    (r.errorOut.log now .errored p none).Sim := by
  have herror : r.errorOut.replay = r.project := by
    unfold InstanceRows.errorOut
    rw [if_pos hactive]
    exact h
  show InstanceRows.replay _ = _
  simp only [replay_log, herror, foldEvent, project_log]
  simp [InstanceRows.errorOut, hactive, project, updateInstance]

theorem skipOthers_activities (exclude : Uuid)
    (hexclude : ∀ a ∈ r.activities, a.id = exclude → a.status ≠ .active) :
    (r.skipOthers exclude).project.activities =
      r.project.activities.map fun a => if a.status == .active then a.skip else a := by
  simp only [project, InstanceRows.skipOthers, updateActivities, updateTimers, List.map_map]
  refine List.map_congr_left fun a ha => ?_
  by_cases hs : a.status = .active
  · have hne : a.id ≠ exclude := fun hid => hexclude a ha hid hs
    simp [ActivityRow.isOtherActive, ActivityRow.project, ActivityRow.skip, ReplayedActivity.skip, hs, hne]
  · simp [ActivityRow.isOtherActive, ActivityRow.project, hs]

theorem skipRemaining (h : r.Sim) (now : Time) (join : WorkflowNode) (exclude : Uuid)
    (hexclude : ∀ a ∈ r.activities, a.id = exclude → a.status ≠ .active) :
    (r.skipRemaining now join exclude).Sim := by
  have hskip : (r.skipOthers exclude).replay = r.project := h
  unfold InstanceRows.skipRemaining
  dsimp only
  split
  · have hnone : pstr (siblingsSkippedPayload join.id
        (r.activities.countP (ActivityRow.isOtherActive exclude))) "activity_id" = none := by
      simp [siblingsSkippedPayload, pstr, Json.get, List.lookup_cons]
    show InstanceRows.replay _ = _
    simp only [replay_log, hskip, foldEvent, ReplayedProjection.skipActivities, hnone, project_log]
    rw [← skipOthers_activities exclude hexclude]
    rfl
  · next hcount =>
    have hnone : ∀ a ∈ r.activities, ¬ a.isOtherActive exclude = true :=
      List.countP_eq_zero.1 (by omega)
    have hmap : (r.activities.map fun a => if a.isOtherActive exclude then a.skip else a) = r.activities := by
      conv => rhs; rw [← List.map_id r.activities]
      exact List.map_congr_left fun a ha => if_neg (hnone a ha)
    have hsame : (r.skipOthers exclude).project = r.project := by
      simp only [project, InstanceRows.skipOthers, updateActivities, updateTimers, hmap]
    show InstanceRows.replay _ = _
    rw [hskip, hsame]

theorem fire (h : r.Sim) (now : Time) (join : WorkflowNode) (round arrived expected : Int)
    (exclude : Option Uuid)
    (hexclude : ∀ a ∈ r.activities, a.id = exclude.getD Uuid.nil → a.status ≠ .active) :
    (r.fire now join round arrived expected exclude).Sim := by
  have hlog : (r.log now .parallelJoinSatisfied (joinSatisfiedPayload join.id arrived expected round) none).Sim :=
    h.log_neutral rfl
  unfold InstanceRows.fire
  dsimp only
  split
  · exact hlog.skipRemaining _ _ _ hexclude
  · exact hlog

/-- The reducer's reading of a scheduled activity is its row. -/
private theorem scheduled_project {tenantId : Int} {node : WorkflowNode} {role : Option String} {round : Int}
    {fanout : Option FanoutMark} {row : ActivityRow} {p : Json}
    (hs : Scheduled env tenantId node role round fanout r row r')
    (hp : p = WorkflowService.scheduledPayload (row.intoModel r.inst.id) node role round fanout)
    (hnode : findNode r.snapshot.nodes node.id = some node)
    (hround : 1 ≤ round ∧ round ≤ frameworkMaxRound) :
    pstr p "activity_id" = some row.id ∧ pstr p "via" = fanout.map FanoutMark.via ∧
      ReplayedActivity.scheduled r.snapshot p row.id ((pstr p "activity_definition_id").getD "") =
        row.project := by
  have hid : pstr p "activity_id" = some row.id := by
    simp [hp, WorkflowService.scheduledPayload, pstr, Json.get, ActivityRow.intoModel]
  have hdef : pstr p "activity_definition_id" = some node.id := by
    simp [hp, WorkflowService.scheduledPayload, pstr, Json.get, List.lookup_cons]
  have hrole : pstr p "assignee_role" = role := by
    simp [hp, WorkflowService.scheduledPayload, pstr, Json.get, List.lookup_cons]
  have hpi : pi32 p "round" = some round := by
    have hsmall : asI32 round = round := asI32_of_small (by omega) (by unfold frameworkMaxRound at hround; omega)
    simp [hp, WorkflowService.scheduledPayload, pi32, Json.get, List.lookup_cons, hsmall]
  refine ⟨hid, ?_, ?_⟩
  · cases fanout <;> simp [hp, WorkflowService.scheduledPayload, pstr, Json.get, List.lookup_cons]
  · have hrow := hs.row_eq
    have htype : activityTypeFor r.snapshot node.id = instantiatedActivityType node.kind := by
      have hfind : r.snapshot.nodes.find? (fun n => n.id == node.id) = some node := hnode
      simp [activityTypeFor, hfind]
    rw [hrow]
    simp [ReplayedActivity.scheduled, ActivityRow.project, ActivityRow.new, hdef, hrole, hpi, htype]

/-- The log after a scheduled activity: one more row, and the current activity unless it is a branch. -/
theorem replay_scheduled {tenantId : Int} {node : WorkflowNode} {role : Option String} {round : Int}
    {fanout : Option FanoutMark} {row : ActivityRow} (h : r.Sim)
    (hs : Scheduled env tenantId node role round fanout r row r')
    (hnode : findNode r.snapshot.nodes node.id = some node)
    (hround : 1 ≤ round ∧ round ≤ frameworkMaxRound) (hactive : r.inst.status = .active) :
    r'.replay = ⟨{ r.project.instanceRow with
        currentActivityId :=
          if fanout.map FanoutMark.via == some "for_each" ||
            fanout.map FanoutMark.via == some "parallel_split" then none else some row.id },
      r.project.activities ++ [row.project]⟩ := by
  obtain ⟨hid, hvia, hproject⟩ := scheduled_project hs rfl hnode hround
  have hstatus : r.project.instanceRow.status = .active := hactive
  have hevents : r'.replay = foldEvent r.snapshot r.project ⟨r.nextSeq, .activityScheduled,
      WorkflowService.scheduledPayload (row.intoModel r.inst.id) node role round fanout, env.now⟩ := by
    rw [← h.replay_eq]
    simp [replay, hs.events, hs.snapshot, EventRow.intoRecord]
  rw [hevents, foldEvent]
  simp only [ReplayedProjection.scheduleActivity, hid, hvia, hproject, hstatus]
  rfl

/-- A scheduled activity becomes the current one. -/
theorem scheduled {tenantId : Int} {node : WorkflowNode} {role : Option String} {round : Int}
    {row : ActivityRow} (h : r.Sim) (hs : Scheduled env tenantId node role round none r row r')
    (hnode : findNode r.snapshot.nodes node.id = some node)
    (hround : 1 ≤ round ∧ round ≤ frameworkMaxRound) (hactive : r.inst.status = .active) :
    (r'.pointTo row.id).Sim := by
  have hactive' : r'.inst.status = .active := by rw [hs.inst]; exact hactive
  have hpoint : r'.pointTo row.id = r'.updateInstance fun i => { i with currentActivityId := some row.id } :=
    if_pos hactive'
  rw [hpoint]
  show r'.replay = _
  rw [h.replay_scheduled hs hnode hround hactive]
  simp [project, updateInstance, hs.inst, hs.activities]

/-- A scheduled branch leaves no current activity. -/
theorem branch {tenantId : Int} {node : WorkflowNode} {role : Option String} {round : Int}
    {via : String} {i : Option Int} {item : Option Json} {row : ActivityRow} (h : r.Sim)
    (hs : Scheduled env tenantId node role round (some ⟨via, i, item⟩) r row r')
    (hvia : via = "for_each" ∨ via = "parallel_split")
    (hnode : findNode r.snapshot.nodes node.id = some node)
    (hround : 1 ≤ round ∧ round ≤ frameworkMaxRound) (hactive : r.inst.status = .active)
    (hcurrent : r.inst.currentActivityId = none) : r'.Sim := by
  show r'.replay = _
  rw [h.replay_scheduled hs hnode hround hactive]
  rcases hvia with rfl | rfl <;> simp [project, hs.inst, hs.activities, hcurrent]

/-- A change of one active activity, told by an event that names it. -/
theorem updateActivity {row : ActivityRow} {f : ActivityRow → ActivityRow}
    {g : ReplayedActivity → ReplayedActivity} (h : r.Sim)
    (hnd : (r.activities.map ActivityRow.id).Nodup) (hrow : row ∈ r.activities)
    (hactive : row.status = .active) (hg : g row.project = (f row).project) :
    r.replay.updateActivity row.id g = (r.updateActivities (ActivityRow.isActive row.id) f).project := by
  rw [h.replay_eq]
  have hpairs : r.project.activities.Pairwise fun a b => (a.id == row.id) = true → (b.id == row.id) = false := by
    simp only [project, List.pairwise_map]
    refine (List.pairwise_map.1 hnd).imp fun {a b} hne ha => ?_
    have ha : a.id = row.id := by simpa [ActivityRow.project] using ha
    have hb : b.id ≠ row.id := fun hb => hne (ha.trans hb.symm)
    simpa [ActivityRow.project] using hb
  have hone : ∀ a ∈ r.activities, a.id = row.id → a = row := by
    intro a ha hid
    exact List.inj_on_of_nodup_map hnd ha hrow hid
  unfold ReplayedProjection.updateActivity
  rw [modifyFirst_eq_map _ hpairs]
  simp only [project, updateActivities, List.map_map]
  congr 1
  refine List.map_congr_left fun a ha => ?_
  by_cases hid : a.id = row.id
  · obtain rfl := hone a ha hid
    simp [ActivityRow.project, ActivityRow.isActive, hactive] at hg ⊢
    exact hg
  · simp [ActivityRow.project, ActivityRow.isActive, hid]

theorem resolve_of_not_waiting (hwaiting : r.inst.status ≠ .returnedWaiting) {now : Time}
    {cmd : SignalCommand} {a : ActivityInstance} :
    r.resolve now cmd a = (r.log now .signalReceived (reviewPayload cmd.signal a.id cmd.actorUserId
      cmd.reviewNotes) (some cmd.idempotencyKey)).completeActivity now a.id (signalResult cmd.signal)
        cmd.actorUserId cmd.reviewNotes (activityCompletedPayload a.id (signalResult cmd.signal)) :=
  if_neg hwaiting

section
variable {row : ActivityRow} (h : r.Sim) (hnd : (r.activities.map ActivityRow.id).Nodup)
  (hrow : row ∈ r.activities) (hactive : row.status = .active)
include h hnd hrow hactive

theorem assign (now : Time) {cmd : SignalCommand} (hcmd : cmd.signal = .claimed ∨ cmd.signal = .reassigned) :
    (r.assign now cmd row.id).Sim := by
  let p := assigneePayload cmd.signal row.id cmd.assigneeId
  have hid : pstr p "target_activity_id" = some row.id := by
    simp [p, assigneePayload, pstr, Json.get, List.lookup_cons]
  have hg : row.project.signalled p ((pstr p "signal_type").getD "") now =
      ActivityRow.project { row with assigneeId := cmd.assigneeId } := by
    rcases hcmd with hs | hs <;>
      simp [p, hs, assigneePayload, pstr, Json.get, List.lookup_cons, signalStr,
        ReplayedActivity.signalled, ActivityRow.project]
  show InstanceRows.replay _ = _
  rw [InstanceRows.assign, replay_log, project_log, replay_updateActivities, foldEvent]
  simp only [ReplayedProjection.receiveSignal]
  rw [show pstr (assigneePayload cmd.signal row.id cmd.assigneeId) "target_activity_id" = some row.id from hid]
  exact h.updateActivity hnd hrow hactive hg

theorem escalate (now : Time) (role : String) (id : Uuid) : (r.escalate now (row.intoModel id) role).Sim := by
  have hid : pstr (escalatedPayload row.id row.assigneeRole role) "activity_id" = some row.id := by
    simp [escalatedPayload, pstr, Json.get]
  have hrole : pstr (escalatedPayload row.id row.assigneeRole role) "to_role" = some role := by
    simp [escalatedPayload, pstr, Json.get, List.lookup_cons]
  show InstanceRows.replay _ = _
  rw [InstanceRows.escalate, replay_log, project_log, replay_updateActivities, foldEvent]
  simp only [ReplayedProjection.escalate, ActivityRow.intoModel, hid, hrole]
  exact h.updateActivity hnd hrow hactive rfl

theorem timeOut (now : Time) : (r.timeOutActivity now row.id).Sim := by
  have hid : pstr (timedOutPayload row.id) "activity_id" = some row.id := by
    simp [timedOutPayload, pstr, Json.get]
  show InstanceRows.replay _ = _
  rw [timeOutActivity, replay_log, project_log, cancelTimersOf, replay_updateTimers, project_updateTimers,
    replay_updateActivities, foldEvent]
  simp only [ReplayedProjection.skipActivities, hid]
  exact h.updateActivity hnd hrow hactive rfl

theorem deliver (now : Time) (hnew : row.Unreviewed) : (r.deliver now row.id).Sim := by
  obtain ⟨-, hnotes, -, -⟩ := hnew
  have hid : pstr (deliveredPayload row.id) "activity_id" = some row.id := by
    simp [deliveredPayload, pstr, Json.get]
  have hg : row.project.completedBy (deliveredPayload row.id) now = (row.complete none 0 none now).project := by
    simp [ReplayedActivity.completedBy, deliveredPayload, pstr, Json.get, List.lookup_cons,
      ActivityRow.complete, ActivityRow.project, hnotes, nilActor]
    rfl
  show InstanceRows.replay _ = _
  rw [InstanceRows.deliver, completeActivity, replay_log, project_log, cancelTimersOf, replay_updateTimers,
    project_updateTimers, replay_updateActivities, foldEvent]
  simp only [hid]
  exact h.updateActivity hnd hrow hactive hg

theorem resolve (now : Time) {cmd : SignalCommand} (hclaim : cmd.signal ≠ .claimed)
    (hreassign : cmd.signal ≠ .reassigned) (hwaiting : r.inst.status ≠ .returnedWaiting) (id : Uuid) :
    (r.resolve now cmd (row.intoModel id)).Sim := by
  let p := reviewPayload cmd.signal row.id cmd.actorUserId cmd.reviewNotes
  let q := activityCompletedPayload row.id (signalResult cmd.signal)
  have hpid : pstr p "target_activity_id" = some row.id := by
    simp [p, reviewPayload, pstr, Json.get, List.lookup_cons]
  have hqid : pstr q "activity_id" = some row.id := by
    simp [q, activityCompletedPayload, pstr, Json.get]
  have hg : (row.project.signalled p ((pstr p "signal_type").getD "") now).completedBy q now =
      (row.complete ((signalResult cmd.signal).bind activityResultFromStr) cmd.actorUserId cmd.reviewNotes
        now).project := by
    cases hs : cmd.signal <;>
      simp [p, q, hs, reviewPayload, activityCompletedPayload, pstr, Json.get, List.lookup_cons,
        signalStr, signalResult, ReplayedActivity.signalled, ReplayedActivity.completedBy,
        ActivityRow.complete, ActivityRow.project, activityResultFromStr, activityResultToStr] at hclaim hreassign ⊢
  show InstanceRows.replay _ = _
  rw [resolve_of_not_waiting hwaiting, completeActivity, replay_log, project_log, cancelTimersOf,
    replay_updateTimers, project_updateTimers, replay_updateActivities, replay_log]
  simp only [foldEvent, ReplayedProjection.receiveSignal, ActivityRow.intoModel]
  rw [show pstr (reviewPayload cmd.signal row.id cmd.actorUserId cmd.reviewNotes) "target_activity_id" =
    some row.id from hpid, show pstr (activityCompletedPayload row.id (signalResult cmd.signal))
    "activity_id" = some row.id from hqid]
  exact (ReplayedProjection.updateActivity_updateActivity _ _ _ fun a => a.signalled_id ..).trans
    (h.updateActivity hnd hrow hactive hg)

end

/-- A reactivated instance forgets its end. -/
theorem reactivate (h : r.Sim) (now : Time) (round : Int) (key : String) :
    (r.reactivate now round key).Sim := by
  show InstanceRows.replay _ = _
  rw [InstanceRows.reactivate, replay_log, project_log, replay_updateInstance, h.replay_eq, foldEvent]
  rfl

end InstanceRows.Sim

/-- The call leaves a branch waiting at a join while the instance still has a current activity, and no
for-each fanned out in the call. -/
structure Stalls (r r' : InstanceRows) : Prop where
  waits : r'.events.getLast?.map EventRow.eventType = some .branchReachedJoin
  current : r.inst.currentActivityId ≠ none
  noFanOut : ∀ e ∈ r'.events.drop r.events.length, e.eventType ≠ .forEachFannedOut

instance (r r' : InstanceRows) : Decidable (Stalls r r') :=
  decidable_of_iff (r'.events.getLast?.map EventRow.eventType = some .branchReachedJoin ∧
      r.inst.currentActivityId ≠ none ∧
      ∀ e ∈ r'.events.drop r.events.length, e.eventType ≠ .forEachFannedOut)
    ⟨fun ⟨h₁, h₂, h₃⟩ => ⟨h₁, h₂, h₃⟩, fun h => ⟨h.waits, h.current, h.noFanOut⟩⟩

private theorem Stalls.of_adds {r r₁ r' : InstanceRows} (h : Adds (· != .forEachFannedOut) r r₁)
    (hcurrent : r.inst.currentActivityId = r₁.inst.currentActivityId) (k : Stalls r₁ r')
    (hevents : ∃ new, r'.events = r₁.events ++ new) : Stalls r r' := by
  obtain ⟨new, hnew, hall⟩ := h
  obtain ⟨new', hnew'⟩ := hevents
  refine ⟨k.waits, by rw [hcurrent]; exact k.current, fun e he => ?_⟩
  have hsplit : r'.events.drop r.events.length = new ++ new' := by
    rw [hnew', hnew, List.append_assoc, List.drop_left]
  have hnew'' : r'.events.drop r₁.events.length = new' := by rw [hnew', List.drop_left]
  rw [hsplit] at he
  rcases List.mem_append.1 he with he | he
  · simpa using hall e he
  · exact k.noFanOut e (by rw [hnew'']; exact he)

section
variable {svc : WorkflowService} {env : Env} {ctx : InstanceCtx} {source : ActivityInstance} {round : Int}

theorem Branches.sim {via : String} {targets : List ParallelTarget} {rows : List ActivityRow}
    {r r' : InstanceRows} (h : Branches env ctx round via targets r rows r')
    (hvia : via = "for_each" ∨ via = "parallel_split") (hsim : r.Sim) (hsnapshot : ctx.snapshot = r.snapshot)
    (hround : 1 ≤ round ∧ round ≤ frameworkMaxRound) (hactive : r.inst.status = .active)
    (hcurrent : r.inst.currentActivityId = none) : r'.Sim ∧ r'.inst = r.inst := by
  induction h with
  | nil => exact ⟨hsim, rfl⟩
  | cons hnode hsched _ ih =>
    obtain ⟨hfind, hid⟩ := InstanceCtx.node_ok hnode
    rw [hsnapshot, ← hid] at hfind
    have hbranch := hsim.branch hsched hvia hfind hround hactive hcurrent
    obtain ⟨hsim', hinst⟩ := ih hbranch (hsnapshot.trans hsched.snapshot.symm) (by rw [hsched.inst]; exact hactive)
      (by rw [hsched.inst]; exact hcurrent)
    exact ⟨hsim', hinst.trans hsched.inst⟩

private theorem Reaches.sim {outcome : AdvanceOutcome} {trace : ResolveTrace} {r r₁ : InstanceRows}
    {join : WorkflowNode} {exclude : Option Uuid}
    (h : Reaches env ctx source round outcome trace r join exclude r₁) (hsim : r.Sim) :
    r₁.Sim ∧ (r₁.inst.currentActivityId = none ∨
      (r₁.inst = r.inst ∧ Adds (· != .forEachFannedOut) r r₁ ∧
        r₁.events.getLast?.map EventRow.eventType = some .branchReachedJoin ∧
        ∃ n ∈ ctx.snapshot.nodes, n.kind = .parallelJoin)) := by
  cases h with
  | arrive hjoin hkind =>
    exact ⟨(hsim.passMerges ..).log_neutral rfl, .inr ⟨passMerges_inst ..,
      (Adds.passMerges r env.now _ _ _ rfl).trans (.log _ _ _ _ rfl),
      by rw [InstanceRows.log, InstanceRows.appendEvent, List.getLast?_concat]; rfl, _, List.mem_of_find?_eq_some (InstanceCtx.node_ok hjoin).1, hkind⟩⟩
  | emptyFanOut => exact ⟨hsim.fanOutRows .., .inl rfl⟩

private theorem clearCurrent_of_none {r : InstanceRows} (h : r.inst.currentActivityId = none) :
    r.clearCurrent = r := by
  unfold InstanceRows.clearCurrent InstanceRows.updateInstance
  rw [← h]

/-- Applying an outcome that hands nothing back keeps the simulation, or leaves a branch stalled. -/
theorem Applied.sim {outcome : AdvanceOutcome} {trace : ResolveTrace} {r r' : InstanceRows}
    (h : Applied env ctx source round svc outcome trace r r') (w : WellFormed svc r) (hsim : r.Sim)
    (hsnapshot : ctx.snapshot = r.snapshot) (hround : 1 ≤ round ∧ round ≤ frameworkMaxRound)
    (hactive : r.inst.status = .active) (hsource : ∀ a ∈ r.activities, a.status = .active → a.id ≠ source.id) :
    (r'.Sim ∧ r'.inst.status ≠ .returnedWaiting) ∨
      (Stalls r r' ∧ ∃ n ∈ ctx.snapshot.nodes, n.kind = .parallelJoin) ∨
      ∃ target role, outcome = .rework target role := by
  induction h with
  | @schedule target role trace r r₁ node row hnode _ hsched =>
    obtain ⟨hfind, hid⟩ := InstanceCtx.node_ok hnode
    rw [hsnapshot, ← hid, ← passMerges_snapshot r] at hfind
    have hactive' : r₁.inst.status = .active := by rw [hsched.inst, passMerges_inst]; exact hactive
    refine .inl ⟨(hsim.passMerges ..).scheduled hsched hfind hround (by rw [passMerges_inst]; exact hactive), ?_⟩
    simp [InstanceRows.pointTo, hactive', InstanceRows.updateInstance]
  | @fan targets trace r r₁ rows _ hbranches =>
    have hinst : (fanOutRows env source round trace targets r).inst = { r.inst with currentActivityId := none } := by
      simp [fanOutRows, InstanceRows.log, InstanceRows.appendEvent, InstanceRows.clearCurrent,
        InstanceRows.updateInstance]
    have hvia : fanOutVia trace = "for_each" ∨ fanOutVia trace = "parallel_split" := by
      unfold fanOutVia
      split
      · exact .inl rfl
      · exact .inr rfl
    obtain ⟨hsim', hinst'⟩ := hbranches.sim hvia (hsim.fanOutRows ..)
      (hsnapshot.trans (passMerges_snapshot ..).symm) hround (by rw [hinst]; exact hactive) (by rw [hinst])
    refine .inl ⟨hsim', ?_⟩
    rw [hinst', hinst]
    simp [hactive]
  | @wait _ _ r r₁ _ _ _ _ hreach _ _ =>
    obtain ⟨-, -, hstatus, -⟩ := hreach.rows
    obtain ⟨hsim', hcurrent | ⟨hinst, hnew, hlast, hjoin⟩⟩ := hreach.sim hsim
    · refine .inl ?_
      rw [clearCurrent_of_none hcurrent]
      exact ⟨hsim', by rw [hstatus, hactive]; simp⟩
    · by_cases hcurrent : r.inst.currentActivityId = none
      · refine .inl ?_
        rw [clearCurrent_of_none (by rw [hinst]; exact hcurrent)]
        exact ⟨hsim', by rw [hinst, hactive]; simp⟩
      · refine .inr (.inl ⟨⟨hlast, hcurrent, ?_⟩, hjoin⟩)
        obtain ⟨new, hevents, hall⟩ := hnew
        have hdrop : r₁.clearCurrent.events.drop r.events.length = new := by
          show r₁.events.drop _ = _
          rw [hevents, List.drop_left]
        rw [hdrop]
        exact fun e he => by simpa using hall e he
  | @fire outcome trace r r₁ r₂ join exclude arrived expected hreach _ _ hnext ih =>
    obtain ⟨hrows, hsnap, hstatus, hexclude⟩ := hreach.rows
    obtain ⟨hsim', hcurrent⟩ := hreach.sim hsim
    have hkeeps : Keeps svc r (r₁.fire env.now join round arrived expected exclude) := hreach.keeps.trans (.fire ..)
    have hothers : ∀ a ∈ r₁.activities, a.id = exclude.getD Uuid.nil → a.status ≠ .active := by
      intro a ha hid hs
      rw [hrows] at ha
      rcases hexclude with rfl | rfl
      · exact hsource a ha hs hid
      · exact w.id_ne_nil a ha hid
    have hfired := hsim'.fire env.now join round arrived expected exclude hothers
    rcases ih (hkeeps.wellFormed w) hfired (by rw [fire_snapshot, hsnap]; exact hsnapshot)
      (by rw [fire_inst, hstatus]; exact hactive)
      (fun a ha hs => hsource a (by rw [← hrows]; exact status_of_mem_fire ha hs) hs) with hdone |
      ⟨hstall, hjoin⟩ | ⟨t, role, hre⟩
    · exact .inl hdone
    · refine .inr (.inl ⟨?_, hjoin⟩)
      rcases hcurrent with hnone | ⟨hinst, hnew, -⟩
      · exact absurd (by rw [fire_inst]; exact hnone) hstall.current
      · exact Stalls.of_adds (hnew.trans (.fire _ _ _ _ _ _ _ rfl rfl)) (by rw [fire_inst, hinst]) hstall
          (hnext.keeps (by rw [fire_snapshot, hsnap]; exact hsnapshot) hround).evolves.events
    · have hres : Resolved svc.cel ctx.snapshot.nodes ctx.context (decideAdvance svc.cel ctx.snapshot.nodes
          ctx.snapshot.transitions ctx.context join.id .approved).1 _ := decideAdvance_resolved (by simp)
      rw [hre] at hres
      cases hres
  | @complete result trace r r₁ os _ hr₁ _ =>
    subst hr₁
    refine .inl ⟨(hsim.passMerges ..).finish env.now result, ?_⟩
    simp [InstanceRows.finish, InstanceRows.updateInstance, InstanceRows.log, InstanceRows.appendEvent]
  | rework => exact .inr (.inr ⟨_, _, rfl⟩)
  | @error trace r reason =>
    have hactive' : (r.passMerges env.now source.activityDefinitionId round trace.mergesPassed).inst.status =
      .active := by rw [passMerges_inst]; exact hactive
    refine .inl ⟨(hsim.passMerges ..).errorOut hactive' env.now _, ?_⟩
    simp [InstanceRows.errorOut, hactive, InstanceRows.updateInstance, InstanceRows.log, InstanceRows.appendEvent]

/-- The activity an update settles is not active afterwards. -/
private theorem settled_not_active {r : InstanceRows} {id : Uuid} {f : ActivityRow → ActivityRow}
    (hf : ∀ a, (f a).status ≠ .active) :
    ∀ a ∈ (r.updateActivities (ActivityRow.isActive id) f).activities, a.status = .active → a.id ≠ id := by
  intro a ha hs
  obtain ⟨b, -, rfl⟩ := List.mem_map.1 ha
  split at hs
  · exact absurd hs (hf b)
  · next h =>
    rw [if_neg h]
    exact fun hid => h ((ActivityRow.isActive_iff _ _).2 ⟨hid, hs⟩)

private theorem resolve_fields {r : InstanceRows} (now : Time) (cmd : SignalCommand) (a : ActivityInstance)
    (hwaiting : r.inst.status ≠ .returnedWaiting) :
    (r.resolve now cmd a).inst = r.inst ∧ (r.resolve now cmd a).snapshot = r.snapshot ∧
      Adds (· != .forEachFannedOut) r (r.resolve now cmd a) ∧
      ∀ b ∈ (r.resolve now cmd a).activities, b.status = .active → b.id ≠ a.id := by
  rw [InstanceRows.Sim.resolve_of_not_waiting hwaiting]
  refine ⟨rfl, rfl, ?_, settled_not_active (fun _ => by simp [ActivityRow.complete])⟩
  exact (Adds.log r now _ _ rfl).trans (.one rfl rfl)

/-- The call hands the instance back to an earlier node. -/
structure HandsBack (r r' : InstanceRows) : Prop where
  last : r'.events.getLast?.map EventRow.eventType = some .returnedToRework
  edge : ∃ t ∈ r.snapshot.transitions, t.onSignal = .returned

private theorem last_of_rework {target : String} {role : Option String} {trace : ResolveTrace}
    {outcome : AdvanceOutcome} {r r' : InstanceRows} (h : Applied env ctx source round svc outcome trace r r')
    (ho : outcome = .rework target role) :
    r'.events.getLast?.map EventRow.eventType = some .returnedToRework := by
  subst ho
  cases h with
  | wait hreach => cases hreach
  | fire hreach => cases hreach
  | rework =>
    rw [InstanceRows.log, InstanceRows.appendEvent, List.getLast?_concat]
    rfl

theorem WellFormed.active {r : InstanceRows} (w : WellFormed svc r) (hterm : r.inst.status.isTerminal = false)
    (hwaiting : r.inst.status ≠ .returnedWaiting) : r.inst.status = .active := by
  obtain ⟨hpending, hcancelled⟩ := w.status
  cases hs : r.inst.status <;> simp [hs, WorkflowStatus.isTerminal] at hterm hwaiting hpending hcancelled ⊢

/-- A call keeps the simulation, unless it leaves a branch stalled or hands the instance back. -/
theorem Effect.sim {call : Call} {r r' : InstanceRows} (h : Effect svc env call r r') (w : WellFormed svc r)
    (hsim : r.Sim) (hwaiting : r.inst.status ≠ .returnedWaiting) :
    (r'.Sim ∧ r'.inst.status ≠ .returnedWaiting) ∨
      (Stalls r r' ∧ ∃ n ∈ r.snapshot.nodes, n.kind = .parallelJoin) ∨ HandsBack r r' := by
  cases h with
  | nothing => exact .inl ⟨hsim, hwaiting⟩
  | assignee hcmd _ hrow hactive => exact .inl ⟨hsim.assign w.ids_nodup hrow hactive _ hcmd, hwaiting⟩
  | @advance cmd _ r₁ _ row node ctx hclaim hreassign hterm hrow hactive _ _ hctx happly =>
    have hstatus := w.active hterm hwaiting
    have hkeeps : Keeps svc r r₁ := hctx.keeps
    obtain ⟨hsim₁, hinst₁, hrows₁, hnew₁⟩ : r₁.Sim ∧ (r₁.inst.status = r.inst.status ∧
        r₁.inst.currentActivityId = r.inst.currentActivityId) ∧ r₁.activities = r.activities ∧ Adds (· != .forEachFannedOut) r r₁ := by
      cases hctx with
      | none => exact ⟨hsim, ⟨rfl, rfl⟩, rfl, .same rfl⟩
      | merged => exact ⟨InstanceRows.Sim.log_neutral hsim rfl, ⟨rfl, rfl⟩, rfl,
          .one rfl rfl⟩
    have hwaiting₁ : r₁.inst.status ≠ .returnedWaiting := by rw [hinst₁.1]; exact hwaiting
    rw [← hrows₁] at hrow
    have hsim₂ := hsim₁.resolve (hkeeps.wellFormed w).ids_nodup hrow hactive env.now hclaim hreassign hwaiting₁ r.inst.id
    have hkeeps₂ : Keeps svc r _ := hkeeps.trans (.resolve r₁ env.now cmd (row.intoModel r.inst.id))
    obtain ⟨hinst, hsnapshot, hnew, hsource⟩ := resolve_fields env.now cmd (row.intoModel r.inst.id) hwaiting₁
    have hsnap₂ := hctx.snapshot.trans hkeeps₂.evolves.snapshot.symm
    have hround := w.rounds _ (by rw [← hrows₁]; exact hrow)
    rcases happly.sim (hkeeps₂.wellFormed w) hsim₂ hsnap₂ hround (by rw [hinst, hinst₁.1]; exact hstatus) hsource with
      hdone | ⟨hstall, hjoin⟩ | ⟨target, role, hre⟩
    · exact .inl hdone
    · refine .inr (.inl ⟨Stalls.of_adds (hnew₁.trans hnew) (by rw [hinst, hinst₁.2]) hstall
        (happly.keeps hsnap₂ hround).evolves.events, ?_⟩)
      rw [hctx.snapshot] at hjoin
      exact hjoin
    · refine .inr (.inr ⟨last_of_rework happly hre, ?_⟩)
      obtain ⟨t, ht, hret⟩ := decideAdvance_rework hre
      exact ⟨t, by rw [hctx.snapshot] at ht; exact ht, hret⟩
  | @reenter _ key _ _ _ _ _ _ _ _ _ hcheck _ hnode hsched =>
    obtain ⟨hfind, hid⟩ := InstanceCtx.node_ok hnode
    rw [← hid] at hfind
    have hnext := r.maxRound_nonneg
    have hle := WorkflowService.round_of_check hcheck
    refine .inl ⟨(hsim.reactivate env.now (r.maxRound + 1) key).scheduled hsched hfind ⟨by omega, hle⟩ rfl, ?_⟩
    simp [InstanceRows.pointTo, hsched.inst, InstanceRows.reactivate, InstanceRows.log, InstanceRows.appendEvent,
      InstanceRows.updateInstance]
  | timerGone => exact .inl ⟨hsim, hwaiting⟩
  | reminder =>
    exact .inl ⟨(hsim.timerFired ..).enqueueOutbox _, by rw [InstanceRows.enqueueOutbox_inst]; exact hwaiting⟩
  | escalationGone => exact .inl ⟨hsim.timerFired .., hwaiting⟩
  | @escalated t _ row node role _ _ hrow hactive =>
    have hfired := hsim.timerFired env.now t row.id node.id
    exact .inl ⟨(hfired.escalate w.ids_nodup hrow hactive env.now role _).enqueueOutbox _,
      by rw [InstanceRows.enqueueOutbox_inst]; exact hwaiting⟩
  | @timedOut t _ _ row node _ _ _ hrow hactive hterm _ happly =>
    have hsim' := (hsim.timerFired env.now t row.id node.id).timeOut w.ids_nodup hrow hactive env.now
    have hkeeps : Keeps svc r _ := (Keeps.timerFired r env.now t row.id node.id).trans
      (.timeOutActivity _ env.now row.id)
    have hnew : Adds (· != .forEachFannedOut) r ((r.timerFired env.now t row.id node.id).timeOutActivity env.now row.id) :=
      (Adds.timerFired r env.now t row.id node.id rfl).trans (.one rfl rfl)
    rcases happly.sim (hkeeps.wellFormed w) hsim' hkeeps.evolves.snapshot.symm (w.rounds _ hrow)
      (w.active hterm hwaiting) (settled_not_active (fun _ => by simp [ActivityRow.skip])) with
      hdone | ⟨hstall, hjoin⟩ | ⟨target, role, hre⟩
    · exact .inl hdone
    · exact .inr (.inl ⟨Stalls.of_adds hnew rfl hstall
        (happly.keeps hkeeps.evolves.snapshot.symm (w.rounds _ hrow)).evolves.events, hjoin⟩)
    · have hres : Resolved svc.cel r.snapshot.nodes r.inst.context (decideEventWaitTimeout svc.cel
          r.snapshot.nodes r.snapshot.transitions r.inst.context row.activityDefinitionId).1 _ :=
        decideEventWaitTimeout_resolved _
      rw [hre] at hres
      cases hres
  | @delivered _ _ row hrow hactive _ hterm happly =>
    have hsim' := hsim.deliver w.ids_nodup hrow hactive env.now (w.unreviewed _ hrow hactive)
    have hkeeps : Keeps svc r _ := .completeActivity r env.now row.id none 0 none (deliveredPayload row.id)
    have hnew : Adds (· != .forEachFannedOut) r (r.deliver env.now row.id) := .one rfl rfl
    rcases happly.sim (hkeeps.wellFormed w) hsim' hkeeps.evolves.snapshot.symm (w.rounds _ hrow)
      (w.active hterm hwaiting) (settled_not_active (fun _ => by simp [ActivityRow.complete])) with
      hdone | ⟨hstall, hjoin⟩ | ⟨target, role, hre⟩
    · exact .inl hdone
    · exact .inr (.inl ⟨Stalls.of_adds hnew rfl hstall
        (happly.keeps hkeeps.evolves.snapshot.symm (w.rounds _ hrow)).evolves.events, hjoin⟩)
    · have hres : Resolved svc.cel r.snapshot.nodes r.inst.context (decideAdvance svc.cel
          r.snapshot.nodes r.snapshot.transitions r.inst.context row.activityDefinitionId .completed).1 _ :=
        decideAdvance_resolved (by simp)
      rw [hre] at hres
      cases hres
  | callback => exact .inl ⟨hsim, hwaiting⟩
  | deadLetter => exact .inl ⟨hsim.log_neutral rfl, hwaiting⟩

end

/-- A new instance is simulated. -/
theorem Started.sim {svc : WorkflowService} {env : Env} {supply : Supply} {cmd : StartCommand}
    {r : InstanceRows} (h : Started svc env supply cmd r) : r.Sim ∧ r.inst.status ≠ .returnedWaiting := by
  obtain ⟨entryId, entryRole, node, row, r₁, -, hfind, hsched, rfl⟩ := h.rows
  have hid : node.id = entryId := by simpa using List.find?_some hfind
  have hbase : ((insertedRows supply cmd).log env.now .started
      (startedPayload cmd (svc.definitionHash cmd.snapshot)) none).Sim := by
    show InstanceRows.replay _ = _
    rw [InstanceRows.replay_log, foldEvent]
    simp [InstanceRows.project, InstanceRows.replay, insertedRows, foldEvents, ReplayedProjection.initial,
      InstanceRows.log, InstanceRows.appendEvent, h.clock]
  refine ⟨hbase.scheduled hsched (by rw [hid]; exact hfind) ⟨by decide, by decide⟩ rfl, ?_⟩
  unfold InstanceRows.pointTo
  split
  · next hs => simp [InstanceRows.updateInstance, hs]
  · rw [hsched.inst]
    simp [InstanceRows.log, InstanceRows.appendEvent, insertedRows]

end Fusions.Hetuflow
