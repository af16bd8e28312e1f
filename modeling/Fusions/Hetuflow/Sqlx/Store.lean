import Fusions.Hetuflow.Core.Model

/-! The Postgres store, one definition per SQL statement, over the rows of one workflow instance.
Rows of other instances are seen through the environment of the call. -/
namespace Fusions.Hetuflow

/-- `activity_instances.result` as the domain reads it. -/
def activityResultToStr (n : Int) : String :=
  if n = 1 then "approved" else if n = 2 then "rejected" else if n = 3 then "returned"
  else if n = 4 then "completed" else s!"unknown:{n}"

/-- The number stored for a result; an unknown text stores none. -/
def activityResultFromStr (s : String) : Option Int :=
  if s = "approved" then some 1 else if s = "rejected" then some 2
  else if s = "returned" then some 3 else if s = "completed" then some 4 else none

/-- A stored result reads back as the text it was stored for. -/
theorem activityResultToStr_fromStr {s : String} {n : Int} (h : activityResultFromStr s = some n) :
    activityResultToStr n = s := by
  unfold activityResultFromStr at h
  split at h
  · next hs => cases h; exact hs.symm
  · split at h
    · next hs => cases h; exact hs.symm
    · split at h
      · next hs => cases h; exact hs.symm
      · split at h
        · next hs => cases h; exact hs.symm
        · cases h

def timerKindStr (n : Int) : String :=
  if n = 1 then "reminder" else if n = 2 then "escalation" else if n = 3 then "timeout"
  else s!"unknown:{n}"

def timerKindI16 (s : String) : Int :=
  if s = "escalation" then 2 else if s = "timeout" then 3 else 1

structure ActivityRow where
  id : Uuid
  tenantId : Int
  activityDefinitionId : String
  activityType : ActivityType
  status : ActivityStatus
  assigneeRole : Option String
  assigneeId : Option Int
  result : Option Int
  reviewNotes : Option String
  reviewedBy : Option Int
  reviewedAt : Option Time
  round : Int
  deriving DecidableEq, Repr

/-- `ActivityRow::into_model`, with the instance the row belongs to. -/
def ActivityRow.intoModel (a : ActivityRow) (workflowInstanceId : Uuid) : ActivityInstance where
  id := a.id
  tenantId := a.tenantId
  workflowInstanceId := workflowInstanceId
  activityDefinitionId := a.activityDefinitionId
  activityType := a.activityType
  status := a.status
  assigneeRole := a.assigneeRole
  assigneeId := a.assigneeId.map toString
  result := a.result.map activityResultToStr
  reviewNotes := a.reviewNotes
  reviewedBy := a.reviewedBy.map toString
  reviewedAt := a.reviewedAt
  round := a.round

structure EventRow where
  seq : Int
  eventType : EventType
  payload : Json
  idempotencyKey : Option String
  createdAt : Time
  deriving Repr

def EventRow.intoRecord (e : EventRow) : EventRecord := ⟨e.seq, e.eventType, e.payload, e.createdAt⟩

inductive TimerStatus where
  | pending
  | fired
  | cancelled
  deriving DecidableEq, Repr

structure TimerRow where
  id : Uuid
  activityInstanceId : Uuid
  timerKind : Int
  status : TimerStatus
  deriving DecidableEq, Repr

/-- `TimerRow::into_record`. -/
def TimerRow.intoRecord (t : TimerRow) (workflowInstanceId : Uuid) : TimerRecord :=
  ⟨t.id, workflowInstanceId, t.activityInstanceId, timerKindStr t.timerKind⟩

inductive OutboxPayload where
  | notification (payload : NotificationPayload)
  | businessCallback (payload : BusinessCallbackPayload)
  deriving Repr

structure OutboxRow where
  activityInstanceId : Uuid
  activityType : String
  payload : OutboxPayload
  deriving Repr

/-- The rows of one workflow instance. Events are kept in `seq` order, the other tables in order of
insertion, which is the order of `created_at`. -/
structure InstanceRows where
  inst : WorkflowInstance
  snapshot : DefinitionSnapshot
  activities : List ActivityRow
  events : List EventRow
  timers : List TimerRow
  outbox : List OutboxRow

/-- What one transaction meets beyond the rows of its instance: the transaction clock, the uuids
Postgres generates (version 4, hence never nil), the activities of other instances, whether another
instance of the same business object is indexed as open. -/
structure Env where
  now : Time
  uuid : Nat → Uuid
  uuid_ne_nil : ∀ n, uuid n ≠ Uuid.nil
  foreignActivity : Uuid → Option ActivityInstance
  openElsewhere : Bool

/-- The state of a transaction: the rows as it sees them, and how many uuids were drawn. -/
structure Tx where
  rows : InstanceRows
  drawn : Nat

/-- `push_scope`. -/
def ScopeFilter.sees (scope : ScopeFilter) (i : WorkflowInstance) : Bool :=
  i.tenantId == scope.tenantId &&
    match scope.facilities with
    | .allInTenant => true
    | .only ids => ids.contains i.facilityId

/-- A column that an `UPDATE .. WHERE p` does not write reads as before. -/
theorem map_updateWhere {α β : Type} {p : α → Prop} [DecidablePred p] {f : α → α} {g : α → β} (h : ∀ a, g (f a) = g a)
    (xs : List α) : (xs.map fun a => if p a then f a else a).map g = xs.map g := by
  rw [List.map_map]
  refine List.map_congr_left fun a _ => ?_
  dsimp only [Function.comp]
  split
  · exact h a
  · rfl

namespace InstanceRows

def activeRows (r : InstanceRows) : List ActivityRow :=
  r.activities.filter fun a => a.status == .active

def models (r : InstanceRows) (rows : List ActivityRow) : List ActivityInstance :=
  rows.map fun a => a.intoModel r.inst.id

/-- `COALESCE(MAX(round), 0)`. -/
def maxRound (r : InstanceRows) : Int :=
  (r.activities.map ActivityRow.round).foldl max 0

/-- `COALESCE(MAX(seq), 0) + 1`. -/
def nextSeq (r : InstanceRows) : Int :=
  (r.events.map EventRow.seq).foldl max 0 + 1

/-- The rows `count_completed_branches` counts. -/
def isArrival (branchNodeIds : List String) (round : Int) (a : ActivityRow) : Bool :=
  a.status == .completed && !(a.result == some 2 || a.result == some 3) && a.round == round &&
    branchNodeIds.contains a.activityDefinitionId

def countCompletedBranches (r : InstanceRows) (branchNodeIds : List String) (round : Int) : Int :=
  r.activities.countP (isArrival branchNodeIds round)

/-- Is this the record of a for-each fan-out into `joinNode` in this round? -/
def isFanOutInto (joinNode : String) (round : Int) (e : EventRow) : Bool :=
  e.eventType == .forEachFannedOut && (e.payload.get "join_node").bind Json.asStr == some joinNode &&
    (e.payload.get "round").bind Json.asI64 == some round

/-- The branch count of the latest for-each fan-out into `joinNode` in this round. -/
def forEachBranchCount (r : InstanceRows) (joinNode : String) (round : Int) :
    Except FlowError (Option Int) :=
  match r.events.reverse.find? (isFanOutInto joinNode round) with
  | none => .ok none
  | some e =>
    match (e.payload.get "branch_count").bind Json.asI64 with
    | some n => .ok (some n)
    | none => .error (.storage "unexpected null; try decoding as an Option")

def updateInstance (r : InstanceRows) (f : WorkflowInstance → WorkflowInstance) : InstanceRows :=
  { r with inst := f r.inst }

/-- `UPDATE activity_instances SET .. WHERE p`. -/
def updateActivities (r : InstanceRows) (p : ActivityRow → Bool) (f : ActivityRow → ActivityRow) :
    InstanceRows :=
  { r with activities := r.activities.map fun a => if p a then f a else a }

/-- `UPDATE workflow_timers SET status = .. WHERE p AND status = 1`. -/
def updateTimers (r : InstanceRows) (p : TimerRow → Bool) (status : TimerStatus) : InstanceRows :=
  { r with
    timers := r.timers.map fun t =>
      if p t && t.status == .pending then { t with status := status } else t }

/-- `ON CONFLICT DO NOTHING` over the unique index (instance, activity, activity_type). -/
def enqueueOutbox (r : InstanceRows) (row : OutboxRow) : InstanceRows :=
  if r.outbox.any fun o =>
      o.activityInstanceId == row.activityInstanceId && o.activityType == row.activityType then r
  else { r with outbox := r.outbox ++ [row] }

def appendEvent (r : InstanceRows) (e : EventRow) : InstanceRows := { r with events := r.events ++ [e] }

end InstanceRows

/-- `WHERE id = $1 AND status = 2`. -/
def ActivityRow.isActive (id : Uuid) (a : ActivityRow) : Bool := a.id == id && a.status == .active

/-- `WHERE workflow_instance_id = $1 AND id != $2 AND status = 2`. -/
def ActivityRow.isOtherActive (id : Uuid) (a : ActivityRow) : Bool := a.id != id && a.status == .active

@[simp] theorem ActivityRow.isActive_iff (id : Uuid) (a : ActivityRow) :
    a.isActive id = true ↔ a.id = id ∧ a.status = .active := by
  simp [isActive]

@[simp] theorem ActivityRow.isOtherActive_iff (id : Uuid) (a : ActivityRow) :
    a.isOtherActive id = true ↔ a.id ≠ id ∧ a.status = .active := by
  simp [isOtherActive]

def ActivityRow.complete (result : Option Int) (reviewedBy : Int) (reviewNotes : Option String)
    (now : Time) (a : ActivityRow) : ActivityRow :=
  { a with
    status := .completed
    result := result
    reviewedBy := some reviewedBy
    reviewedAt := some now
    reviewNotes := reviewNotes }

def ActivityRow.skip (a : ActivityRow) : ActivityRow := { a with status := .skipped }

/-- A row as `insert_activity` writes it. -/
def ActivityRow.new (id : Uuid) (tenantId : Int) (nodeId : String) (activityType : ActivityType)
    (assigneeRole : Option String) (round : Int) : ActivityRow :=
  ⟨id, tenantId, nodeId, activityType, .active, assigneeRole, none, none, none, none, none, round⟩

/-- The SQL statements of the store. `skip_other_active_activities` issues two of them. -/
inductive Stmt : Type → Type where
  | loadInstance : Stmt (Option WorkflowInstance)
  | getInstanceScoped (scope : ScopeFilter) : Stmt (Option WorkflowInstance)
  | loadInstanceForUpdateScoped (scope : ScopeFilter) : Stmt (Option WorkflowInstance)
  | loadSnapshot : Stmt DefinitionSnapshot
  | completeWorkflowCas (result : WorkflowResult) : Stmt Bool
  | reactivateWorkflow : Stmt Bool
  | errorWorkflow : Stmt Bool
  | clearCurrentActivity : Stmt Unit
  | updateCurrentActivity (activityId : Uuid) : Stmt Bool
  | enterReturnedWaiting (newActivityId : Uuid) : Stmt Bool
  | resumeFromReturnedWaiting : Stmt Bool
  | markSideEffectsExecuted : Stmt Bool
  | mergeInstanceContext (patch : Json) : Stmt Json
  | insertActivity (tenantId : Int) (nodeId : String) (activityType : ActivityType)
      (assigneeRole : Option String) (round : Int) : Stmt ActivityInstance
  | activeActivity : Stmt (Option ActivityInstance)
  | activeActivities : Stmt (List ActivityInstance)
  | countCompletedBranches (branchNodeIds : List String) (round : Int) : Stmt Int
  | forEachBranchCount (joinNode : String) (round : Int) : Stmt (Option Int)
  | loadActivity (activityId : Uuid) : Stmt (Option ActivityInstance)
  | listActivities : Stmt (List ActivityInstance)
  | completeActivityCas (activityId : Uuid) (result : Option Int) (reviewedBy : Int)
      (reviewNotes : Option String) : Stmt Bool
  | skipActivityForTimeout (activityId : Uuid) : Stmt Bool
  | cancelTimersOfOthers (excludeActivityId : Uuid) : Stmt Unit
  | skipOtherActiveActivities (excludeActivityId : Uuid) : Stmt Nat
  | maxRound : Stmt Int
  | nextSeq : Stmt Int
  | loadEvents : Stmt (List EventRecord)
  | idempotencySeen (key : String) : Stmt Bool
  | appendEvent (seq : Int) (eventType : EventType) (payload : Json)
      (idempotencyKey : Option String) : Stmt Unit
  | enqueueOutbox (row : OutboxRow) : Stmt Unit
  | scheduleTimer (activityId : Uuid) (timerKind : String) : Stmt Unit
  | cancelTimersForActivity (activityId : Uuid) : Stmt Unit
  | updateActivityAssigneeRole (activityId : Uuid) (newRole : String) : Stmt Bool
  | updateActivityAssignee (activityId : Uuid) (assigneeId : Option Int) : Stmt Bool
  | markTimerFired (timerId : Uuid) : Stmt Bool

namespace Tx

/-- An `UPDATE` of the instance row guarded by a predicate on it: `n > 0`, and the new row. -/
def casInstance (tx : Tx) (guard : WorkflowInstance → Bool) (f : WorkflowInstance → WorkflowInstance) :
    Bool × Tx :=
  (guard tx.rows.inst,
    if guard tx.rows.inst then { tx with rows := tx.rows.updateInstance f } else tx)

/-- An `UPDATE` of activity rows: `n > 0`, and the new rows. -/
def casActivities (tx : Tx) (guard : ActivityRow → Bool) (f : ActivityRow → ActivityRow) : Bool × Tx :=
  (tx.rows.activities.any guard, { tx with rows := tx.rows.updateActivities guard f })

/-- Is this id taken by an activity row of any instance? -/
def activityIdTaken (env : Env) (tx : Tx) (id : Uuid) : Bool :=
  tx.rows.activities.any (·.id == id) || (env.foreignActivity id).isSome

def loadActivity (env : Env) (tx : Tx) (id : Uuid) : Option ActivityInstance :=
  match tx.rows.activities.find? (·.id == id) with
  | some a => some (a.intoModel tx.rows.inst.id)
  | none => env.foreignActivity id

/-- `insert_activity`: the primary key refuses an id that is taken. -/
def insertActivity (env : Env) (tx : Tx) (tenantId : Int) (nodeId : String)
    (activityType : ActivityType) (assigneeRole : Option String) (round : Int) :
    Except FlowError (ActivityInstance × Tx) :=
  let id := env.uuid tx.drawn
  if tx.activityIdTaken env id then .error (.storage "duplicate key value violates unique constraint")
  else
    let row := ActivityRow.new id tenantId nodeId activityType assigneeRole round
    .ok (row.intoModel tx.rows.inst.id,
      { rows := { tx.rows with activities := tx.rows.activities ++ [row] }, drawn := tx.drawn + 1 })

/-- `schedule_timer`: one pending timer of a kind for an activity is enough. -/
def scheduleTimer (env : Env) (tx : Tx) (activityId : Uuid) (timerKind : String) : Tx :=
  let kind := timerKindI16 timerKind
  if tx.rows.timers.any fun t =>
      t.activityInstanceId == activityId && t.timerKind == kind && t.status == .pending then tx
  else
    { rows := { tx.rows with
        timers := tx.rows.timers ++ [⟨env.uuid tx.drawn, activityId, kind, .pending⟩] }
      drawn := tx.drawn + 1 }

/-- Setting a status that the partial unique index covers fails on a second open instance. -/
def reopen (env : Env) (tx : Tx) (guard : WorkflowInstance → Bool)
    (f : WorkflowInstance → WorkflowInstance) : Except FlowError (Bool × Tx) :=
  if guard tx.rows.inst && env.openElsewhere then
    .error (.storage "duplicate key value violates unique constraint")
  else .ok (tx.casInstance guard f)

end Tx

/-- The effect of one statement. -/
def exec (env : Env) : {β : Type} → Stmt β → Tx → Except FlowError (β × Tx)
  | _, .loadInstance, tx => .ok (some tx.rows.inst, tx)
  | _, .getInstanceScoped scope, tx =>
    .ok (if scope.sees tx.rows.inst then some tx.rows.inst else none, tx)
  | _, .loadInstanceForUpdateScoped scope, tx =>
    .ok (if scope.sees tx.rows.inst then some tx.rows.inst else none, tx)
  | _, .loadSnapshot, tx => .ok (tx.rows.snapshot, tx)
  | _, .completeWorkflowCas result, tx =>
    .ok (tx.casInstance (·.status == .active) fun i =>
      { i with status := .completed, result := some result, completedAt := some env.now,
               currentActivityId := none })
  | _, .reactivateWorkflow, tx =>
    tx.reopen env (fun i => i.status == .completed && i.result == some .returned) fun i =>
      { i with status := .active, result := none, completedAt := none }
  | _, .errorWorkflow, tx =>
    .ok (tx.casInstance (·.status == .active) fun i => { i with status := .errored })
  | _, .clearCurrentActivity, tx =>
    .ok ((), { tx with rows := tx.rows.updateInstance fun i => { i with currentActivityId := none } })
  | _, .updateCurrentActivity id, tx =>
    .ok (tx.casInstance (·.status == .active) fun i => { i with currentActivityId := some id })
  | _, .enterReturnedWaiting id, tx =>
    .ok (tx.casInstance (·.status == .active) fun i =>
      { i with status := .returnedWaiting, currentActivityId := some id })
  | _, .resumeFromReturnedWaiting, tx =>
    tx.reopen env (·.status == .returnedWaiting) fun i => { i with status := .active }
  | _, .markSideEffectsExecuted, tx =>
    .ok (tx.casInstance (fun i => !i.sideEffectsExecuted) fun i => { i with sideEffectsExecuted := true })
  | _, .mergeInstanceContext patch, tx =>
    let merged := Json.concat (tx.rows.inst.context.getD (.obj [])) patch
    .ok (merged, { tx with rows := tx.rows.updateInstance fun i => { i with context := some merged } })
  | _, .insertActivity tenantId nodeId activityType assigneeRole round, tx =>
    tx.insertActivity env tenantId nodeId activityType assigneeRole round
  | _, .activeActivity, tx =>
    .ok (tx.rows.activeRows.getLast?.map fun a => a.intoModel tx.rows.inst.id, tx)
  | _, .activeActivities, tx => .ok (tx.rows.models tx.rows.activeRows, tx)
  | _, .countCompletedBranches ids round, tx => .ok (tx.rows.countCompletedBranches ids round, tx)
  | _, .forEachBranchCount join round, tx =>
    match tx.rows.forEachBranchCount join round with
    | .ok n => .ok (n, tx)
    | .error e => .error e
  | _, .loadActivity id, tx => .ok (tx.loadActivity env id, tx)
  | _, .listActivities, tx => .ok (tx.rows.models tx.rows.activities, tx)
  | _, .completeActivityCas id result reviewedBy reviewNotes, tx =>
    .ok (tx.casActivities (ActivityRow.isActive id) (ActivityRow.complete result reviewedBy reviewNotes env.now))
  | _, .skipActivityForTimeout id, tx => .ok (tx.casActivities (ActivityRow.isActive id) ActivityRow.skip)
  | _, .cancelTimersOfOthers exclude, tx =>
    .ok ((), { tx with rows := tx.rows.updateTimers (fun t => tx.rows.activities.any fun a =>
      a.isOtherActive exclude && a.id == t.activityInstanceId) .cancelled })
  | _, .skipOtherActiveActivities exclude, tx =>
    .ok (tx.rows.activities.countP (ActivityRow.isOtherActive exclude),
      { tx with rows := tx.rows.updateActivities (ActivityRow.isOtherActive exclude) ActivityRow.skip })
  | _, .maxRound, tx => .ok (tx.rows.maxRound, tx)
  | _, .nextSeq, tx => .ok (tx.rows.nextSeq, tx)
  | _, .loadEvents, tx => .ok (tx.rows.events.map EventRow.intoRecord, tx)
  | _, .idempotencySeen key, tx => .ok (tx.rows.events.any (·.idempotencyKey == some key), tx)
  | _, .appendEvent seq eventType payload key, tx =>
    .ok ((), { tx with rows := tx.rows.appendEvent ⟨seq, eventType, payload, key, env.now⟩ })
  | _, .enqueueOutbox row, tx =>
    .ok ((), { tx with rows := tx.rows.enqueueOutbox row })
  | _, .scheduleTimer id kind, tx => .ok ((), tx.scheduleTimer env id kind)
  | _, .cancelTimersForActivity id, tx =>
    .ok ((), { tx with rows := tx.rows.updateTimers (·.activityInstanceId == id) .cancelled })
  | _, .updateActivityAssigneeRole id role, tx =>
    .ok (tx.casActivities (ActivityRow.isActive id) fun a => { a with assigneeRole := some role })
  | _, .updateActivityAssignee id assignee, tx =>
    .ok (tx.casActivities (ActivityRow.isActive id) fun a => { a with assigneeId := assignee })
  | _, .markTimerFired id, tx =>
    .ok (tx.rows.timers.any fun t => t.id == id && t.status == .pending,
      { tx with rows := tx.rows.updateTimers (·.id == id) .fired })

end Fusions.Hetuflow
