import Fusions.Hetuflow.Service.Applied

/-! The calls of the service on one instance, and the relation `Effect` of everything a call that
returns can do to the rows of its instance. -/
namespace Fusions.Hetuflow
open Fusions.Library Program

/-- A call on an existing instance. -/
inductive Call where
  | signal (cmd : SignalCommand)
  | resubmit (scope : ScopeFilter) (idempotencyKey : String)
  | fireTimer (timerId : Uuid)
  | onNotificationDelivered (activityId : Uuid)
  | onBusinessCallbackDelivered
  | onOutboxDeadLetter (activityId : Uuid) (activityType lastError : String)

/-- The call returns. A timer call carries the record of one of the instance's timers, a delivery
call the activity of one of its outbox records; any other arguments find nothing to do. -/
def Call.Returns (svc : WorkflowService) (env : Env) (tx tx' : Tx) : Call → Prop
  | .signal cmd =>
    cmd.instanceId = tx.rows.inst.id ∧
      ∃ fuel out, Program.Returns (exec env) (svc.signal fuel cmd) tx out tx'
  | .resubmit scope key =>
    ∃ out, Program.Returns (exec env) (svc.resubmit scope tx.rows.inst.id key) tx out tx'
  | .fireTimer id =>
    ∃ t ∈ tx.rows.timers, t.id = id ∧
      ∃ fuel out, Program.Returns (exec env) (svc.fireTimer fuel (t.intoRecord tx.rows.inst.id)) tx out tx'
  | .onNotificationDelivered id =>
    (∃ a ∈ tx.rows.activities, a.id = id) ∧
      ∃ fuel out, Program.Returns (exec env) (svc.onNotificationDelivered fuel id) tx out tx'
  | .onBusinessCallbackDelivered =>
    ∃ out, Program.Returns (exec env) WorkflowService.onBusinessCallbackDelivered tx out tx'
  | .onOutboxDeadLetter id activityType lastError =>
    ∃ out, Program.Returns (exec env) (WorkflowService.onOutboxDeadLetter id activityType lastError)
      tx out tx'

namespace InstanceRows
variable (r : InstanceRows)

/-- A completed activity: row, timers, event. -/
def completeActivity (now : Time) (id : Uuid) (result : Option String) (reviewedBy : Int)
    (reviewNotes : Option String) (payload : Json) : InstanceRows :=
  ((r.updateActivities (ActivityRow.isActive id)
      (ActivityRow.complete (result.bind activityResultFromStr) reviewedBy reviewNotes now)).cancelTimersOf
    id).log now .activityCompleted payload none

/-- A timed-out activity: row, timers, event. -/
def timeOutActivity (now : Time) (id : Uuid) : InstanceRows :=
  ((r.updateActivities (ActivityRow.isActive id) ActivityRow.skip).cancelTimersOf id).log now
    .activitySkipped (timedOutPayload id) none

def assign (now : Time) (cmd : SignalCommand) (id : Uuid) : InstanceRows :=
  (r.updateActivities (ActivityRow.isActive id) fun a => { a with assigneeId := cmd.assigneeId }).log now
    .signalReceived (assigneePayload cmd.signal id cmd.assigneeId) (some cmd.idempotencyKey)

def escalate (now : Time) (a : ActivityInstance) (toRole : String) : InstanceRows :=
  (r.updateActivities (ActivityRow.isActive a.id) fun a => { a with assigneeRole := some toRole }).log now
    .approvalEscalated (escalatedPayload a.id a.assigneeRole toRole) none

/-- A returned-waiting instance comes back to active. -/
def resume (now : Time) (a : ActivityInstance) : InstanceRows :=
  if r.inst.status = .returnedWaiting then
    (r.updateInstance fun i => { i with status := .active }).log now .reworkResumed
      (reworkResumedPayload a) none
  else r

@[simp] theorem resume_activities (now : Time) (a : ActivityInstance) :
    (r.resume now a).activities = r.activities := by
  unfold resume
  split <;> rfl

/-- A completed(returned) instance comes back to active. -/
def reactivate (now : Time) (round : Int) (key : String) : InstanceRows :=
  (r.updateInstance fun i => { i with status := .active, result := none, completedAt := none }).log now
    .reactivated (reactivatedPayload round) (some key)

/-- A signal has resolved its activity; its outcome is still to be applied. -/
def resolve (now : Time) (cmd : SignalCommand) (a : ActivityInstance) : InstanceRows :=
  ((r.log now .signalReceived (reviewPayload cmd.signal a.id cmd.actorUserId cmd.reviewNotes)
      (some cmd.idempotencyKey)).completeActivity now a.id (signalResult cmd.signal) cmd.actorUserId
    cmd.reviewNotes (activityCompletedPayload a.id (signalResult cmd.signal))).resume now a

/-- A delivery has completed its notification activity. -/
def deliver (now : Time) (id : Uuid) : InstanceRows :=
  r.completeActivity now id none 0 none (deliveredPayload id)

def fireTimer (id : Uuid) : InstanceRows := r.updateTimers (·.id == id) .fired

/-- A timer has fired for an activity of the node. -/
def timerFired (now : Time) (t : TimerRow) (id : Uuid) (nodeId : String) : InstanceRows :=
  (r.fireTimer t.id).log now .timerFired (timerFiredPayload (timerKindStr t.timerKind) id nodeId) none

/-- The context of the instance a call works with. -/
def ctx : InstanceCtx := .ofInstance r.inst r.snapshot

end InstanceRows

/-- The write-back of the declared context keys, if the node declares any. -/
inductive ContextWritten (env : Env) (node : WorkflowNode) (round : Int) (patch : Option Json)
    (ctx : InstanceCtx) (r : InstanceRows) : InstanceCtx → InstanceRows → Prop where
  | none : node.contextWrites = [] → ContextWritten env node round patch ctx r ctx r
  | merged {fields filtered : List (String × Json)} {merged : Json} :
      node.contextWrites ≠ [] → patch = some (.obj fields) →
      filterPatch node.id (.obj fields) node.contextWrites = .ok filtered →
      merged = Json.concat (r.inst.context.getD (.obj [])) (.obj filtered) →
      ContextWritten env node round patch ctx r { ctx with context := some merged }
        ((r.updateInstance fun i => { i with context := some merged }).log env.now .contextUpdated
          (contextUpdatedPayload node round) none)

/-- A timer has nothing to fire for: the instance has ended, the timer is not pending, or its activity is
not active. -/
def InstanceRows.NothingDue (r : InstanceRows) (t : TimerRow) : Prop :=
  r.inst.status.isTerminal = true ∨ t.status ≠ .pending ∨
    ∃ row ∈ r.activities, row.id = t.activityInstanceId ∧ row.status ≠ .active

/-- What a call that returns does to the rows. -/
inductive Effect (svc : WorkflowService) (env : Env) : Call → InstanceRows → InstanceRows → Prop where
  | nothing {call : Call} {r : InstanceRows} : Effect svc env call r r
  | assignee {cmd : SignalCommand} {r : InstanceRows} {row : ActivityRow} :
      (cmd.signal = .claimed ∨ cmd.signal = .reassigned) → r.inst.status.isTerminal = false →
      row ∈ r.activities → row.status = .active →
      Effect svc env (.signal cmd) r (r.assign env.now cmd row.id)
  | advance {cmd : SignalCommand} {r r₁ r' : InstanceRows} {row : ActivityRow} {node : WorkflowNode}
      {ctx : InstanceCtx} :
      cmd.signal ≠ .claimed → cmd.signal ≠ .reassigned → r.inst.status.isTerminal = false →
      row ∈ r.activities → row.status = .active →
      r.ctx.node row.activityDefinitionId = .ok node →
      checkSignalAgainstNode node cmd.signal cmd.eventType = .ok () →
      ContextWritten env node row.round cmd.contextPatch r.ctx r ctx r₁ →
      Applied env ctx (row.intoModel r.inst.id) row.round svc
        (decideAdvance svc.cel ctx.snapshot.nodes ctx.snapshot.transitions ctx.context
          row.activityDefinitionId cmd.signal).1
        (decideAdvance svc.cel ctx.snapshot.nodes ctx.snapshot.transitions ctx.context
          row.activityDefinitionId cmd.signal).2
        (r₁.resolve env.now cmd (row.intoModel r.inst.id)) r' →
      (∀ id, cmd.activityId = some id → row.id = id) →
      Effect svc env (.signal cmd) r r'
  | reenter {scope : ScopeFilter} {key : String} {r r₁ : InstanceRows} {entryId : String}
      {entryRole : Option String} {node : WorkflowNode} {row : ActivityRow} :
      r.inst.status = .completed → r.inst.result = some .returned → env.openElsewhere = false →
      svc.checkRound r.ctx (r.maxRound + 1) = .ok () →
      decideStart r.snapshot.nodes = some (entryId, entryRole) → r.ctx.node entryId = .ok node →
      Scheduled env r.inst.tenantId node entryRole (r.maxRound + 1) none
        (r.reactivate env.now (r.maxRound + 1) key) row r₁ →
      r.events.any (·.idempotencyKey == some key) = false →
      Effect svc env (.resubmit scope key) r (r₁.pointTo row.id)
  | timerGone {t : TimerRow} {r : InstanceRows} :
      t ∈ r.timers → r.NothingDue t → Effect svc env (.fireTimer t.id) r (r.fireTimer t.id)
  | reminder {t : TimerRow} {r : InstanceRows} {row : ActivityRow} {node : WorkflowNode}
      {payload : NotificationPayload} :
      t ∈ r.timers → row ∈ r.activities → row.status = .active → r.inst.status.isTerminal = false →
      r.ctx.node row.activityDefinitionId = .ok node → timerKindStr t.timerKind = "reminder" →
      Effect svc env (.fireTimer t.id) r
        ((r.timerFired env.now t row.id node.id).enqueueOutbox
          ⟨row.id, "notification_reminder", .notification payload⟩)
  | escalationGone {t : TimerRow} {r : InstanceRows} {row : ActivityRow} {node : WorkflowNode} :
      t ∈ r.timers → row ∈ r.activities → row.status = .active → r.inst.status.isTerminal = false →
      r.ctx.node row.activityDefinitionId = .ok node → timerKindStr t.timerKind = "escalation" →
      Effect svc env (.fireTimer t.id) r (r.timerFired env.now t row.id node.id)
  | escalated {t : TimerRow} {r : InstanceRows} {row : ActivityRow} {node : WorkflowNode} {toRole : String}
      {payload : NotificationPayload} :
      t ∈ r.timers → row ∈ r.activities → row.status = .active → r.inst.status.isTerminal = false →
      r.ctx.node row.activityDefinitionId = .ok node → timerKindStr t.timerKind = "escalation" →
      Effect svc env (.fireTimer t.id) r
        (((r.timerFired env.now t row.id node.id).escalate env.now (row.intoModel r.inst.id)
          toRole).enqueueOutbox ⟨row.id, "notification_escalation", .notification payload⟩)
  | timedOut {t : TimerRow} {r r' : InstanceRows} {row : ActivityRow} {node : WorkflowNode} :
      t ∈ r.timers → timerKindStr t.timerKind = "timeout" → t.activityInstanceId = row.id →
      row ∈ r.activities → row.status = .active → r.inst.status.isTerminal = false →
      r.ctx.node row.activityDefinitionId = .ok node →
      Applied env r.ctx (row.intoModel r.inst.id) row.round svc
        (decideEventWaitTimeout svc.cel r.snapshot.nodes r.snapshot.transitions r.inst.context
          row.activityDefinitionId).1
        (decideEventWaitTimeout svc.cel r.snapshot.nodes r.snapshot.transitions r.inst.context
          row.activityDefinitionId).2
        ((r.timerFired env.now t row.id node.id).timeOutActivity env.now row.id) r' →
      Effect svc env (.fireTimer t.id) r r'
  | delivered {r r' : InstanceRows} {row : ActivityRow} :
      row ∈ r.activities → row.status = .active → row.activityType = .notification →
      r.inst.status.isTerminal = false →
      Applied env r.ctx (row.intoModel r.inst.id) row.round svc
        (decideAdvance svc.cel r.snapshot.nodes r.snapshot.transitions r.inst.context
          row.activityDefinitionId .completed).1
        (decideAdvance svc.cel r.snapshot.nodes r.snapshot.transitions r.inst.context
          row.activityDefinitionId .completed).2
        (r.deliver env.now row.id) r' →
      Effect svc env (.onNotificationDelivered row.id) r r'
  | callback {r : InstanceRows} :
      Effect svc env .onBusinessCallbackDelivered r
        (r.updateInstance fun i => { i with sideEffectsExecuted := true })
  | deadLetter {r : InstanceRows} {id : Uuid} {activityType lastError : String} :
      Effect svc env (.onOutboxDeadLetter id activityType lastError) r
        (r.log env.now .activityFailed (deadLetterPayload id activityType lastError) none)

section
variable {svc : WorkflowService} {env : Env} {tx tx' : Tx}

/-- The activities of other instances, as a call on these rows meets them, belong to others. -/
def Env.Foreign (env : Env) (r : InstanceRows) : Prop :=
  ∀ id a, env.foreignActivity id = some a → a.workflowInstanceId ≠ r.inst.id

/-- Every timer is of an activity of the instance. -/
def InstanceRows.TimersOwned (r : InstanceRows) : Prop :=
  ∀ t ∈ r.timers, ∃ a ∈ r.activities, a.id = t.activityInstanceId

private theorem loadActivity_own {id : Uuid} {a : ActivityInstance}
    (h : tx.loadActivity env id = some a) (hown : ∃ x ∈ tx.rows.activities, x.id = id) :
    ∃ row ∈ tx.rows.activities, row.id = id ∧ a = row.intoModel tx.rows.inst.id := by
  unfold Tx.loadActivity at h
  cases hfind : tx.rows.activities.find? (·.id == id) with
  | some row =>
    rw [hfind] at h
    have hid : row.id = id := by simpa using List.find?_some hfind
    exact ⟨row, List.mem_of_find?_eq_some hfind, hid, (Option.some.inj h).symm⟩
  | none =>
    obtain ⟨x, hx, hid⟩ := hown
    exact absurd hid (by simpa using List.find?_eq_none.1 hfind x hx)

private theorem loadActivity_isSome {id : Uuid} {x : ActivityRow} (hx : x ∈ tx.rows.activities) (hid : x.id = id) :
    ∃ a, tx.loadActivity env id = some a := by
  unfold Tx.loadActivity
  split
  · exact ⟨_, rfl⟩
  · next hnone => exact absurd hid (by simpa using List.find?_eq_none.1 hnone x hx)

private theorem row_of_target {cmd : SignalCommand} {a : ActivityInstance}
    (hforeign : env.Foreign tx.rows) (hid : cmd.instanceId = tx.rows.inst.id)
    (h : Program.Returns (exec env) (resolveTargetActivity cmd) tx a tx') :
    tx' = tx ∧ ∃ row ∈ tx.rows.activities, row.status = .active ∧ a = row.intoModel tx.rows.inst.id ∧
      ∀ id, cmd.activityId = some id → row.id = id := by
  unfold resolveTargetActivity at h
  split at h
  · next id htarget =>
    rw [returns_bind] at h
    obtain ⟨found, t₁, hload, h⟩ := h
    obtain ⟨rfl, rfl⟩ := (returns_exec rfl _).1 hload
    split at h
    · exact absurd h (returns_fail _ _ _ _ _)
    · next activity hfound =>
      rcases (returns_ite _ _ _ _ _ _ _).1 h with ⟨-, h⟩ | ⟨howner, h⟩
      · exact absurd h (returns_fail _ _ _ _ _)
      rcases (returns_ite _ _ _ _ _ _ _).1 h with ⟨-, h⟩ | ⟨hactive, h⟩
      · exact absurd h (returns_fail _ _ _ _ _)
      obtain ⟨rfl, rfl⟩ := (returns_pure _ _ _ _ _).1 h
      have howner : a.workflowInstanceId = tx'.rows.inst.id := by simpa [hid] using howner
      have hown : ∃ x ∈ tx'.rows.activities, x.id = id := by
        refine Classical.byContradiction fun hno => ?_
        have hnone : tx'.rows.activities.find? (·.id == id) = none :=
          List.find?_eq_none.2 fun x hx hxid => hno ⟨x, hx, by simpa using hxid⟩
        rw [Tx.loadActivity, hnone] at hfound
        exact hforeign _ _ hfound howner
      obtain ⟨row, hrow, hrowid, rfl⟩ := loadActivity_own hfound hown
      refine ⟨rfl, row, hrow, by simpa [ActivityRow.intoModel] using hactive, rfl, fun id' hid' => ?_⟩
      exact hrowid.trans (Option.some.inj (htarget.symm.trans hid'))
  · next htarget =>
    rw [returns_bind] at h
    obtain ⟨active, t₁, hlist, h⟩ := h
    obtain ⟨rfl, rfl⟩ := (returns_exec rfl _).1 hlist
    split at h
    · exact absurd h (returns_fail _ _ _ _ _)
    · next one heq =>
      obtain ⟨rfl, rfl⟩ := (returns_pure _ _ _ _ _).1 h
      have hmem : a ∈ tx'.rows.models tx'.rows.activeRows := by rw [heq]; exact List.mem_singleton.2 rfl
      obtain ⟨row, hrow, rfl⟩ := List.mem_map.1 hmem
      obtain ⟨hrow, hstatus⟩ := List.mem_filter.1 hrow
      exact ⟨rfl, row, hrow, by simpa using hstatus, rfl, fun id hid' => by simp [htarget] at hid'⟩
    · exact absurd h (returns_fail _ _ _ _ _)

theorem contextWritten_of_returns {ctx ctx' : InstanceCtx} {node : WorkflowNode} {round : Int}
    {patch : Option Json}
    (h : Program.Returns (exec env) (applyContextWrites ctx node round patch) tx ctx' tx') :
    ContextWritten env node round patch ctx tx.rows ctx' tx'.rows := by
  unfold applyContextWrites at h
  rcases (returns_ite _ _ _ _ _ _ _).1 h with ⟨hempty, h⟩ | ⟨hempty, h⟩
  · obtain ⟨rfl, rfl⟩ := (returns_pure _ _ _ _ _).1 h
    exact .none (by simpa using hempty)
  · split at h
    · next fields =>
      simp only [returns_bind, returns_ofExcept, returns_append, returns_pure] at h
      obtain ⟨filtered, _, ⟨hfilter, rfl⟩, merged, t₁, hmerge, _, t₂, rfl, rfl, rfl⟩ := h
      obtain ⟨rfl, rfl⟩ := (returns_exec rfl _).1 hmerge
      exact .merged (by simpa using hempty) rfl hfilter rfl
    · exact absurd h (returns_fail _ _ _ _ _)

theorem returns_completeActivity {a : ActivityInstance} {result : Option String} {actor : Int}
    {notes : Option String} {u : Unit}
    (h : Program.Returns (exec env) (completeActivity a result actor notes) tx u tx') :
    tx' = tx.map (·.completeActivity env.now a.id result actor notes (activityCompletedPayload a.id result)) := by
  simp only [completeActivity, returns_bind] at h
  obtain ⟨hit, t₁, hcas, h⟩ := h
  obtain ⟨rfl, rfl⟩ := (returns_exec rfl _).1 hcas
  rcases (returns_ite _ _ _ _ _ _ _).1 h with ⟨-, h⟩ | ⟨-, h⟩
  · simp only [returns_bind, returns_append] at h
    obtain ⟨_, t₂, hcancel, rfl⟩ := h
    rw [((returns_exec rfl _).1 hcancel).2]
    rfl
  · exact absurd h (returns_fail _ _ _ _ _)

private theorem returns_resume {status : WorkflowStatus} {a : ActivityInstance} {u : Unit}
    (hstatus : tx.rows.inst.status = status)
    (h : Program.Returns (exec env) (resumeIfWaiting status a) tx u tx') :
    tx' = tx.map (·.resume env.now a) := by
  subst hstatus
  unfold resumeIfWaiting at h
  rcases (returns_ite _ _ _ _ _ _ _).1 h with ⟨hs, h⟩ | ⟨hs, h⟩
  · have hs : tx.rows.inst.status = .returnedWaiting := by simpa using hs
    rw [returns_bind] at h
    obtain ⟨hit, t₁, hcas, h⟩ := h
    rw [returns_stmt, exec, Tx.reopen] at hcas
    split at hcas
    · cases hcas
    · simp only [Tx.casInstance, hs, beq_self_eq_true, ↓reduceIte, Except.ok.injEq, Prod.mk.injEq] at hcas
      obtain ⟨rfl, rfl⟩ := hcas
      simp only [↓reduceIte, returns_append] at h
      rw [h]
      simp [Tx.map, InstanceRows.resume, hs]
  · have hs : tx.rows.inst.status ≠ .returnedWaiting := by simpa using hs
    rw [((returns_pure _ _ _ _ _).1 h).2]
    simp [Tx.map, InstanceRows.resume, hs]

private theorem ContextWritten.status {node : WorkflowNode} {round : Int} {patch : Option Json}
    {ctx ctx' : InstanceCtx} {r r' : InstanceRows}
    (h : ContextWritten env node round patch ctx r ctx' r') : r'.inst.status = r.inst.status := by
  cases h <;> rfl

/-- A signal that advances the graph writes the context, resolves its activity, and applies the outcome that is
decided on the context in force then. -/
theorem returns_signalAdvance {fuel : Nat} {cmd : SignalCommand} {status : WorkflowStatus} {ctx : InstanceCtx}
    {a : ActivityInstance} {node : WorkflowNode} {out : SignalOutcome} (hstatus : tx.rows.inst.status = status)
    (h : Program.Returns (exec env) (svc.signalAdvance fuel cmd status ctx a node) tx out tx') :
    ∃ ctx' r₁, ContextWritten env node a.round cmd.contextPatch ctx tx.rows ctx' r₁ ∧
      Applied env ctx' a a.round svc
        (decideAdvance svc.cel ctx'.snapshot.nodes ctx'.snapshot.transitions ctx'.context a.activityDefinitionId
          cmd.signal).1
        (decideAdvance svc.cel ctx'.snapshot.nodes ctx'.snapshot.transitions ctx'.context a.activityDefinitionId
          cmd.signal).2
        (r₁.resolve env.now cmd a) tx'.rows := by
  simp only [WorkflowService.signalAdvance, returns_bind, returns_append, returns_reload, returns_pure] at h
  obtain ⟨ctx', t₃, hctx, _, t₄, rfl, _, t₅, hcomplete, _, t₆, hresume, _, t₇, happly, _, _, ⟨-, rfl⟩, active, t₈, hlist,
    -, rfl⟩ := h
  have hwritten := contextWritten_of_returns hctx
  obtain rfl := returns_completeActivity hcomplete
  rw [((returns_exec rfl _).1 hlist).2]
  obtain rfl := returns_resume (by exact hwritten.status.trans hstatus) hresume
  exact ⟨ctx', t₃.rows, hwritten, applied_of_returns happly⟩

private theorem effect_signalFresh {fuel : Nat} {cmd : SignalCommand} {out : SignalOutcome}
    (hforeign : env.Foreign tx.rows) (hid : cmd.instanceId = tx.rows.inst.id)
    (h : Program.Returns (exec env) (svc.signalFresh fuel cmd tx.rows.inst) tx out tx') :
    Effect svc env (.signal cmd) tx.rows tx'.rows := by
  unfold WorkflowService.signalFresh at h
  rcases (returns_ite _ _ _ _ _ _ _).1 h with ⟨-, h⟩ | ⟨hterm, h⟩
  · exact absurd h (returns_fail _ _ _ _ _)
  have hterm : tx.rows.inst.status.isTerminal = false := by simpa using hterm
  simp only [returns_bind, returns_ofExcept] at h
  obtain ⟨snapshot, t₁, hsnap, a, t₂, htarget, node, _, ⟨hnode, rfl⟩, _, _, ⟨hcheck, rfl⟩, h⟩ := h
  obtain ⟨rfl, rfl⟩ := (returns_exec rfl _).1 hsnap
  obtain ⟨rfl, row, hrow, hactive, rfl, hnamed⟩ := row_of_target hforeign hid htarget
  rcases (returns_ite _ _ _ _ _ _ _).1 h with ⟨hs, h⟩ | ⟨hs, h⟩
  · simp only [signalAssignee, returns_bind, returns_append, returns_reload, returns_pure] at h
    obtain ⟨hit, t₃, hassign, _, t₄, rfl, _, _, ⟨-, rfl⟩, active, t₅, hlist, -, rfl⟩ := h
    rw [((returns_exec rfl _).1 hlist).2, ((returns_exec rfl _).1 hassign).2]
    exact .assignee (by simpa using hs) hterm hrow hactive
  · obtain ⟨ctx, r₁, hwritten, happly⟩ := returns_signalAdvance rfl h
    simp only [Bool.or_eq_true, beq_iff_eq, not_or] at hs
    exact .advance hs.1 hs.2 hterm hrow hactive hnode hcheck hwritten happly hnamed

/-- A keyed command that returns is a replay of a key on record, which changes nothing, or it is `fresh` on the
locked instance. -/
theorem returns_keyed {key message : String} {scope : ScopeFilter} {fresh : WorkflowInstance → Prog SignalOutcome}
    {out : SignalOutcome}
    (h : Program.Returns (exec env)
      (if isBlank key then .fail (.validation "idempotency_key is required")
      else do
        match ← stmt (.loadInstanceForUpdateScoped scope) with
        | none => .fail (.notFound message)
        | some inst =>
          if ← stmt (.idempotencySeen key) then do
            let active ← stmt .activeActivities
            pure ⟨inst, active, true⟩
          else fresh inst) tx out tx') :
    isBlank key = false ∧
      (tx.rows.events.any (·.idempotencyKey == some key) = true ∧ tx' = tx ∨
        tx.rows.events.any (·.idempotencyKey == some key) = false ∧
          Program.Returns (exec env) (fresh tx.rows.inst) tx out tx') := by
  rcases (returns_ite _ _ _ _ _ _ _).1 h with ⟨-, h⟩ | ⟨hblank, h⟩
  · exact absurd h (returns_fail _ _ _ _ _)
  refine ⟨by simpa using hblank, ?_⟩
  rw [returns_bind] at h
  obtain ⟨found, t₁, hload, h⟩ := h
  obtain ⟨rfl, rfl⟩ := (returns_exec rfl _).1 hload
  split at h
  · exact absurd h (returns_fail _ _ _ _ _)
  next inst hfound =>
  obtain rfl : t₁.rows.inst = inst := by
    split at hfound
    · exact Option.some.inj hfound
    · cases hfound
  rw [returns_bind] at h
  obtain ⟨seen, t₂, hseen, h⟩ := h
  obtain ⟨rfl, rfl⟩ := (returns_exec rfl _).1 hseen
  rcases (returns_ite _ _ _ _ _ _ _).1 h with ⟨hkey, h⟩ | ⟨hfresh, h⟩
  · simp only [returns_bind, returns_pure] at h
    obtain ⟨active, t₃, hlist, -, rfl⟩ := h
    exact .inl ⟨hkey, ((returns_exec rfl _).1 hlist).2⟩
  · exact .inr ⟨Bool.eq_false_iff.2 hfresh, h⟩

private theorem effect_signal {fuel : Nat} {cmd : SignalCommand} {out : SignalOutcome}
    (hforeign : env.Foreign tx.rows) (hid : cmd.instanceId = tx.rows.inst.id)
    (h : Program.Returns (exec env) (svc.signal fuel cmd) tx out tx') :
    Effect svc env (.signal cmd) tx.rows tx'.rows := by
  obtain ⟨-, ⟨-, rfl⟩ | ⟨-, hfresh⟩⟩ := returns_keyed h
  · exact .nothing
  · exact effect_signalFresh hforeign hid hfresh

private theorem effect_reenter {scope : ScopeFilter} {key : String} {out : SignalOutcome}
    (hs : tx.rows.inst.status = .completed) (hr : tx.rows.inst.result = some .returned)
    (hfresh : tx.rows.events.any (·.idempotencyKey == some key) = false)
    (h : Program.Returns (exec env) (svc.reenter tx.rows.inst key) tx out tx') :
    Effect svc env (.resubmit scope key) tx.rows tx'.rows := by
  simp only [WorkflowService.reenter, returns_bind, returns_ofExcept] at h
  obtain ⟨snapshot, t₁, hsnap, n, t₂, hmax, _, _, ⟨hround, rfl⟩, hit, t₃, hcas, h⟩ := h
  obtain ⟨rfl, rfl⟩ := (returns_exec rfl _).1 hsnap
  obtain ⟨rfl, rfl⟩ := (returns_exec rfl _).1 hmax
  rw [returns_stmt, exec, Tx.reopen] at hcas
  split at hcas
  · cases hcas
  next hopen =>
  simp only [Tx.casInstance, hs, hr, beq_self_eq_true, Bool.and_self, ↓reduceIte, Except.ok.injEq,
    Prod.mk.injEq] at hcas
  obtain ⟨rfl, rfl⟩ := hcas
  simp only [↓reduceIte, returns_bind, returns_append] at h
  obtain ⟨_, t₄, rfl, h⟩ := h
  split at h
  · exact absurd h (returns_fail _ _ _ _ _)
  next entryId entryRole hentry =>
  simp only [returns_bind, returns_ofExcept, returns_reload, returns_pure] at h
  obtain ⟨node, _, ⟨hnode, rfl⟩, a, t₅, hsched, hit, t₆, hpoint, _, _, ⟨-, rfl⟩, active, t₇, hlist, -, rfl⟩ := h
  obtain ⟨row, rfl, hrow⟩ := returns_scheduleActivity hsched
  rw [((returns_exec rfl _).1 hlist).2, returns_pointTo hpoint]
  exact .reenter hs hr (by simpa [hs, hr] using hopen) hround hentry hnode hrow hfresh

private theorem effect_resubmit {scope : ScopeFilter} {key : String} {out : SignalOutcome}
    (h : Program.Returns (exec env) (svc.resubmit scope tx.rows.inst.id key) tx out tx') :
    Effect svc env (.resubmit scope key) tx.rows tx'.rows := by
  obtain ⟨-, ⟨-, rfl⟩ | ⟨hfresh, h⟩⟩ := returns_keyed h
  · exact .nothing
  rcases (returns_ite _ _ _ _ _ _ _).1 h with ⟨hs, h⟩ | ⟨-, h⟩
  · simp only [Bool.and_eq_true, beq_iff_eq] at hs
    exact effect_reenter hs.1 hs.2 hfresh h
  · exact absurd h (returns_fail _ _ _ _ _)

private theorem effect_fireDue {fuel : Nat} {t : TimerRow} {row : ActivityRow} {fired : Bool}
    (ht : t ∈ tx.rows.timers) (hrow : row ∈ tx.rows.activities) (hactive : row.status = .active)
    (hid : t.activityInstanceId = row.id) (hterm : tx.rows.inst.status.isTerminal = false)
    (h : Program.Returns (exec env) (svc.fireDue fuel (t.intoRecord tx.rows.inst.id) tx.rows.inst
      (row.intoModel tx.rows.inst.id)) (tx.map (·.fireTimer t.id)) fired tx') :
    Effect svc env (.fireTimer t.id) tx.rows tx'.rows := by
  simp only [WorkflowService.fireDue, returns_bind, returns_ofExcept, returns_append] at h
  obtain ⟨snapshot, t₁, hsnap, node, _, ⟨hnode, rfl⟩, _, t₂, rfl, h⟩ := h
  obtain ⟨rfl, rfl⟩ := (returns_exec rfl _).1 hsnap
  rcases (returns_ite _ _ _ _ _ _ _).1 h with ⟨hkind, h⟩ | ⟨-, h⟩
  · simp only [WorkflowService.fireReminder, returns_bind, returns_pure] at h
    obtain ⟨_, t₃, henq, -, rfl⟩ := h
    rw [((returns_exec rfl _).1 henq).2]
    exact .reminder ht hrow hactive hterm hnode (by simpa [TimerRow.intoRecord] using hkind)
  rcases (returns_ite _ _ _ _ _ _ _).1 h with ⟨hkind, h⟩ | ⟨-, h⟩
  · have hkind : timerKindStr t.timerKind = "escalation" := by simpa [TimerRow.intoRecord] using hkind
    unfold WorkflowService.fireEscalation at h
    split at h
    · rw [((returns_pure _ _ _ _ _).1 h).2]
      exact .escalationGone ht hrow hactive hterm hnode hkind
    · rw [returns_bind] at h
      obtain ⟨hit, t₃, hcas, h⟩ := h
      obtain ⟨rfl, rfl⟩ := (returns_exec rfl _).1 hcas
      rcases (returns_ite _ _ _ _ _ _ _).1 h with ⟨-, h⟩ | ⟨hmiss, h⟩
      · simp only [returns_bind, returns_append, returns_pure] at h
        obtain ⟨_, t₄, rfl, _, t₅, henq, -, rfl⟩ := h
        rw [((returns_exec rfl _).1 henq).2]
        exact .escalated ht hrow hactive hterm hnode hkind
      · refine absurd (List.any_eq_true.2 ⟨row, hrow, ?_⟩) hmiss
        simp [ActivityRow.isActive, ActivityRow.intoModel, hactive]
  rcases (returns_ite _ _ _ _ _ _ _).1 h with ⟨hkind, h⟩ | ⟨-, h⟩
  · simp only [WorkflowService.fireTimeout, returns_bind, returns_append, returns_pure] at h
    obtain ⟨hit, t₃, hskip, _, t₄, hcancel, _, t₅, rfl, _, t₆, happly, -, rfl⟩ := h
    obtain ⟨-, rfl⟩ := (returns_exec rfl _).1 hskip
    obtain ⟨-, rfl⟩ := (returns_exec rfl _).1 hcancel
    exact .timedOut ht (by simpa [TimerRow.intoRecord] using hkind) hid hrow hactive hterm hnode
      (applied_of_returns happly)
  · exact absurd h (returns_fail _ _ _ _ _)

private theorem effect_fireTimer {fuel : Nat} {t : TimerRow} {fired : Bool}
    (howned : tx.rows.TimersOwned) (ht : t ∈ tx.rows.timers)
    (h : Program.Returns (exec env) (svc.fireTimer fuel (t.intoRecord tx.rows.inst.id)) tx fired tx') :
    Effect svc env (.fireTimer t.id) tx.rows tx'.rows := by
  simp only [WorkflowService.fireTimer, returns_bind] at h
  obtain ⟨hit, t₁, hmark, h⟩ := h
  obtain ⟨rfl, rfl⟩ := (returns_exec rfl _).1 hmark
  rcases (returns_ite _ _ _ _ _ _ _).1 h with ⟨-, h⟩ | ⟨hmiss, h⟩
  · rw [returns_bind] at h
    obtain ⟨found, t₂, hload, h⟩ := h
    obtain ⟨rfl, rfl⟩ := (returns_exec rfl _).1 hload
    simp only at h
    rcases (returns_ite _ _ _ _ _ _ _).1 h with ⟨hterm, h⟩ | ⟨hterm, h⟩
    · rw [((returns_pure _ _ _ _ _).1 h).2]
      exact .timerGone ht (.inl hterm)
    rw [returns_bind] at h
    obtain ⟨found, t₃, hact, h⟩ := h
    obtain ⟨hfound, rfl⟩ := (returns_exec rfl _).1 hact
    split at h
    · obtain ⟨x, hx, hid⟩ := howned t ht
      refine absurd hfound.symm (Option.ne_none_iff_exists'.2 ?_)
      exact loadActivity_isSome hx hid
    next a =>
    obtain ⟨row, hrow, hid, rfl⟩ := loadActivity_own hfound.symm (howned t ht)
    rcases (returns_ite _ _ _ _ _ _ _).1 h with ⟨hactive, h⟩ | ⟨hactive, h⟩
    · rw [((returns_pure _ _ _ _ _).1 h).2]
      exact .timerGone ht (.inr (.inr ⟨row, hrow, hid, by simpa [ActivityRow.intoModel] using hactive⟩))
    exact effect_fireDue ht hrow (by simpa [ActivityRow.intoModel] using hactive) hid.symm
      (Bool.eq_false_iff.2 hterm) h
  · rw [((returns_pure _ _ _ _ _).1 h).2]
    refine .timerGone ht (.inr (.inl fun hpending => hmiss (List.any_eq_true.2 ⟨t, ht, ?_⟩)))
    simp [TimerRow.intoRecord, hpending]

private theorem effect_delivered {fuel : Nat} {id : Uuid} {u : Unit}
    (hown : ∃ a ∈ tx.rows.activities, a.id = id)
    (h : Program.Returns (exec env) (svc.onNotificationDelivered fuel id) tx u tx') :
    Effect svc env (.onNotificationDelivered id) tx.rows tx'.rows := by
  simp only [WorkflowService.onNotificationDelivered, returns_bind] at h
  obtain ⟨found, t₁, hload, h⟩ := h
  obtain ⟨rfl, rfl⟩ := (returns_exec rfl _).1 hload
  simp only at h
  rcases (returns_ite _ _ _ _ _ _ _).1 h with ⟨-, h⟩ | ⟨hterm, h⟩
  · rw [((returns_pure _ _ _ _ _).1 h).2]
    exact .nothing
  rw [returns_bind] at h
  obtain ⟨found, t₂, hact, h⟩ := h
  obtain ⟨hfound, rfl⟩ := (returns_exec rfl _).1 hact
  split at h
  · rw [((returns_pure _ _ _ _ _).1 h).2]
    exact .nothing
  next a =>
  obtain ⟨row, hrow, rfl, rfl⟩ := loadActivity_own hfound.symm hown
  rcases (returns_ite _ _ _ _ _ _ _).1 h with ⟨-, h⟩ | ⟨hkind, h⟩
  · rw [((returns_pure _ _ _ _ _).1 h).2]
    exact .nothing
  simp only [WorkflowService.completeDelivered, returns_bind, returns_append] at h
  obtain ⟨snapshot, t₃, hsnap, hit, t₄, hcas, _, t₅, hcancel, _, t₆, rfl, happly⟩ := h
  obtain ⟨rfl, rfl⟩ := (returns_exec rfl _).1 hsnap
  obtain ⟨-, rfl⟩ := (returns_exec rfl _).1 hcas
  obtain ⟨-, rfl⟩ := (returns_exec rfl _).1 hcancel
  simp only [ActivityRow.intoModel, Bool.or_eq_true, bne_iff_ne, ne_eq, not_or, Decidable.not_not] at hkind
  exact .delivered hrow hkind.1 hkind.2 (by simpa using hterm) (applied_of_returns happly)

/-- Whatever a call does when it returns, it does by `Effect`. -/
theorem effect_of_returns {call : Call} (hforeign : env.Foreign tx.rows)
    (howned : tx.rows.TimersOwned) (h : call.Returns svc env tx tx') :
    Effect svc env call tx.rows tx'.rows := by
  cases call with
  | signal cmd =>
    obtain ⟨hid, fuel, out, h⟩ := h
    exact effect_signal hforeign hid h
  | resubmit scope key =>
    obtain ⟨out, h⟩ := h
    exact effect_resubmit h
  | fireTimer id =>
    obtain ⟨t, ht, rfl, fuel, out, h⟩ := h
    exact effect_fireTimer howned ht h
  | onNotificationDelivered id =>
    obtain ⟨hown, fuel, out, h⟩ := h
    exact effect_delivered hown h
  | onBusinessCallbackDelivered =>
    obtain ⟨out, h⟩ := h
    simp only [WorkflowService.onBusinessCallbackDelivered, returns_bind, returns_pure] at h
    obtain ⟨hit, t₁, hcas, -, rfl⟩ := h
    obtain ⟨-, rfl⟩ := (returns_exec rfl _).1 hcas
    by_cases hs : tx.rows.inst.sideEffectsExecuted = true
    · simp only [hs, Bool.not_true, Bool.false_eq_true, ↓reduceIte]
      exact .nothing
    · simp only [hs, Bool.not_false, ↓reduceIte]
      exact .callback
  | onOutboxDeadLetter id activityType lastError =>
    obtain ⟨out, h⟩ := h
    simp only [WorkflowService.onOutboxDeadLetter, returns_bind] at h
    obtain ⟨found, t₁, hload, h⟩ := h
    obtain ⟨rfl, rfl⟩ := (returns_exec rfl _).1 hload
    simp only [returns_append] at h
    rw [h]
    exact .deadLetter

end

end Fusions.Hetuflow
