import Fusions.Library.Program
import Fusions.Hetuflow.Runtime.Replay
import Fusions.Hetuflow.Runtime.Validate
import Fusions.Hetuflow.Sqlx.Store

/-! The orchestration service's internals: scheduling, fan-out, joins, and outcome application. -/
namespace Fusions.Hetuflow
open Fusions.Library

/-- A service call: store statements in sequence. A mark is set where `apply_outcome` starts, with
the source activity of the outcome. -/
abbrev Prog (α : Type) := Program Stmt Uuid FlowError α

/-- `e.to_string()`. -/
def FlowError.toText : FlowError → String
  | .validation m => s!"validation: {m}"
  | .notFound m => s!"not found: {m}"
  | .conflict m => s!"conflict: {m}"
  | .storage m => s!"storage: {m}"
  | .serialization m => s!"serialization: {m}"
  | .invalidState m => s!"invalid state: {m}"

structure TerminalCallback where
  handlerType : String
  payload : Json
  deriving Repr

def TerminalCallback.toJson (tc : TerminalCallback) : Json :=
  .obj [("handler_type", .str tc.handlerType), ("payload", tc.payload)]

def TerminalCallback.ofJson (j : Json) : Except String TerminalCallback :=
  match (j.get "handler_type").bind Json.asStr, j.get "payload" with
  | some handlerType, some payload => .ok ⟨handlerType, payload⟩
  | none, _ => .error "missing field handler_type"
  | _, none => .error "missing field payload"

/-- Registered handlers by type, each with the idempotency key strategy of its handler. -/
structure CallbackRegistry where
  handlers : List (String × IdempotencyKeyStrategy)
  deriving Repr

namespace CallbackRegistry

def get (r : CallbackRegistry) (handlerType : String) : Option IdempotencyKeyStrategy :=
  r.handlers.lookup handlerType

def contains (r : CallbackRegistry) (handlerType : String) : Bool := (r.get handlerType).isSome

def handlerTypes (r : CallbackRegistry) : List String := r.handlers.map Prod.fst

end CallbackRegistry

structure WorkflowConfig where
  reminderTemplateCode : String
  escalationTemplateCode : String
  notificationTypes : List String
  notificationReferenceType : String
  notificationPurpose : String
  notificationVisibility : String
  maxRoundHardLimit : Int
  deriving DecidableEq, Repr

/-- `MAX_ROUND_HARD_LIMIT`. -/
def frameworkMaxRound : Int := 20

def WorkflowConfig.default : WorkflowConfig where
  reminderTemplateCode := "workflow_approval_reminder"
  escalationTemplateCode := "workflow_approval_escalation"
  notificationTypes := ["NOTIFICATION_TYPE_IN_APP"]
  notificationReferenceType := "workflow_instance"
  notificationPurpose := "workflow_notification"
  notificationVisibility := "VISIBILITY_ACTION"
  maxRoundHardLimit := frameworkMaxRound

/-- The service with the crates it calls: the CEL evaluator and the SHA-256 of a definition. Its
round ceiling is the clamped one. -/
structure WorkflowService where
  config : WorkflowConfig
  registry : CallbackRegistry
  cel : Cel
  definitionHash : DefinitionSnapshot → String
  one_le_limit : 1 ≤ config.maxRoundHardLimit
  limit_le : config.maxRoundHardLimit ≤ frameworkMaxRound

/-- `WorkflowService::new`. -/
def WorkflowService.new (config : WorkflowConfig) (registry : CallbackRegistry) (cel : Cel)
    (definitionHash : DefinitionSnapshot → String) : WorkflowService where
  config := { config with maxRoundHardLimit := max 1 (min config.maxRoundHardLimit frameworkMaxRound) }
  registry := registry
  cel := cel
  definitionHash := definitionHash
  one_le_limit := Int.le_max_left ..
  limit_le := Int.max_le.2 ⟨by decide, Int.min_le_right ..⟩

/-- The facts of the instance that every write of a call needs. -/
structure InstanceCtx where
  instanceId : Uuid
  tenantId : Int
  facilityId : Uuid
  snapshot : DefinitionSnapshot
  context : Option Json
  businessType : String
  businessKey : String
  referenceNo : String

namespace InstanceCtx

def ofInstance (i : WorkflowInstance) (snapshot : DefinitionSnapshot) : InstanceCtx :=
  ⟨i.id, i.tenantId, i.facilityId, snapshot, i.context, i.businessType, i.businessKey, i.referenceNo⟩

def node (ctx : InstanceCtx) (id : String) : Except FlowError WorkflowNode :=
  match findNode ctx.snapshot.nodes id with
  | some n => .ok n
  | none => .error (.invalidState s!"node '{id}' is not in the instance's bound snapshot")

end InstanceCtx

/-- How a fan-out marks the activities it schedules. -/
structure FanoutMark where
  via : String
  itemIndex : Option Int
  itemPayload : Option Json

open Program

section payloads

def activityCompletedPayload (activityId : Uuid) (result : Option String) : Json :=
  .obj [("activity_id", .str activityId), ("result", .ofOption result)]

def completedPayload (result : WorkflowResult) : Json := .obj [("result", .str result.asStr)]

def erroredPayload (reason : String) : Json := .obj [("reason", .str reason)]

def joinSatisfiedPayload (joinId : String) (arrived expected round : Int) : Json :=
  .obj [("join_node", .str joinId), ("arrived", .num arrived), ("expected", .num expected),
        ("round", .num round)]

def siblingsSkippedPayload (joinId : String) (count : Nat) : Json :=
  .obj [("join_node", .str joinId), ("count", .num count)]

def branchReachedPayload (branchId joinId : String) (round : Int) : Json :=
  .obj [("branch_node", .str branchId), ("join_node", .str joinId), ("round", .num round)]

def forEachFannedOutPayload (fan : ForEachFanOut) (count : Nat) (round : Int) : Json :=
  .obj [("for_each_node", .str fan.forEachNode), ("join_node", .str fan.joinTarget),
        ("branch_count", .num count), ("round", .num round)]

def splitScheduledPayload (fromId : String) (targets : List ParallelTarget) (round : Int) : Json :=
  .obj [("from", .str fromId), ("branch_targets", .arr (targets.map fun t => .str t.nodeId)),
        ("round", .num round)]

def mergePassedPayload (fromId mergeId : String) (round : Int) : Json :=
  .obj [("from", .str fromId), ("merge_node", .str mergeId), ("round", .num round)]

def returnedToReworkPayload (fromId targetId : String) (round : Int) (activityId : Uuid)
    (assigneeRole : Option String) : Json :=
  .obj [("from_node", .str fromId), ("rework_target", .str targetId), ("round", .num round),
        ("activity_id", .str activityId), ("assignee_role", .ofOption assigneeRole)]

end payloads

/-- Append one event with the next sequence number. -/
def append (eventType : EventType) (payload : Json) (idempotencyKey : Option String) : Prog Unit := do
  let seq ← stmt .nextSeq
  stmt (.appendEvent seq eventType payload idempotencyKey)

def reload (ctx : InstanceCtx) : Prog WorkflowInstance := do
  match ← stmt .loadInstance with
  | some i => pure i
  | none => .fail (.notFound s!"workflow instance {ctx.instanceId} vanished mid-transaction")

/-- `skip_other_active_activities`: the timers first, then the activities. -/
def skipOtherActiveActivities (exclude : Uuid) : Prog Nat := do
  stmt (.cancelTimersOfOthers exclude)
  stmt (.skipOtherActiveActivities exclude)

/-- The signal completes its activity; the activity must still be active. -/
def completeActivity (activity : ActivityInstance) (result : Option String) (actorUserId : Int)
    (reviewNotes : Option String) : Prog Unit := do
  let hit ← stmt (.completeActivityCas activity.id (result.bind activityResultFromStr) actorUserId reviewNotes)
  if hit then do
    stmt (.cancelTimersForActivity activity.id)
    append .activityCompleted (activityCompletedPayload activity.id result) none
  else .fail (.conflict s!"activity {activity.id} is no longer active")

namespace WorkflowService
variable (svc : WorkflowService)

def notificationFromConfig (ctx : InstanceCtx) (config : NotificationConfig) : NotificationPayload where
  tenantId := ctx.tenantId
  facilityId := some ctx.facilityId
  templateCode := config.templateCode.getD ""
  recipientSelector := config.recipientSelector.getD (.userIds [])
  notificationTypes := config.notificationTypes
  templateArgs := config.templateArgs
  referenceType := config.referenceType.getD svc.config.notificationReferenceType
  purpose := config.purpose.getD svc.config.notificationPurpose
  visibility := config.visibility.getD svc.config.notificationVisibility
  businessType := ctx.businessType
  businessKey := ctx.businessKey

/-- A reminder or escalation notification of the framework itself. -/
def notificationPayload (ctx : InstanceCtx) (templateCode : String) (roleCode : Option String)
    (node : WorkflowNode) : NotificationPayload where
  tenantId := ctx.tenantId
  facilityId := some ctx.facilityId
  templateCode := templateCode
  recipientSelector :=
    match roleCode with
    | some role => .role role (some ctx.facilityId)
    | none => .userIds []
  notificationTypes := svc.config.notificationTypes
  -- a `BTreeMap`, in key order
  templateArgs := [("node_id", node.id), ("node_name", node.name), ("reference_no", ctx.referenceNo)]
  referenceType := svc.config.notificationReferenceType
  purpose := svc.config.notificationPurpose
  visibility := svc.config.notificationVisibility
  businessType := ctx.businessType
  businessKey := ctx.businessKey

def enqueueNotification (activity : ActivityInstance) (outboxType : String)
    (payload : NotificationPayload) : Prog Unit :=
  stmt (.enqueueOutbox ⟨activity.id, outboxType, .notification payload⟩)

/-- The round limit in force: the definition's own one, capped by the framework's. -/
def effectiveLimit (snapshot : DefinitionSnapshot) : Int :=
  min (if snapshot.maxRound > 0 then snapshot.maxRound else svc.config.maxRoundHardLimit)
    svc.config.maxRoundHardLimit

def checkRound (ctx : InstanceCtx) (round : Int) : Except FlowError Unit :=
  let effective := svc.effectiveLimit ctx.snapshot
  if round > effective then
    .error (.conflict s!"rework round {round} exceeds the effective limit {effective}")
  else .ok ()

/-- Payload of `activity.scheduled.v1`. -/
def scheduledPayload (activity : ActivityInstance) (node : WorkflowNode) (assigneeRole : Option String)
    (round : Int) (fanout : Option FanoutMark) : Json :=
  .obj (
    [("activity_id", .str activity.id),
     ("activity_definition_id", .str node.id),
     ("activity_type", .str (instantiatedActivityType node.kind).asStr),
     ("round", .num round),
     ("assignee_role", .ofOption assigneeRole)] ++
    match fanout with
    | none => []
    | some f =>
      [("via", .str f.via)] ++
      (match f.itemIndex with | some i => [("item_index", .num i)] | none => []) ++
      (match f.itemPayload with | some item => [("item_payload", item)] | none => []))

/-- The timers of a node's activity: reminder, escalation, event-wait timeout. -/
def scheduleTimers (node : WorkflowNode) (activity : ActivityInstance) : Prog Unit := do
  whenever node.slaSeconds.isSome (stmt (.scheduleTimer activity.id "reminder"))
  whenever node.escalationConfig.isSome (stmt (.scheduleTimer activity.id "escalation"))
  whenever (node.eventWait.any fun w => w.2.1.isSome) (stmt (.scheduleTimer activity.id "timeout"))

/-- The delivery intent of a notification node's activity. -/
def enqueueDelivery (ctx : InstanceCtx) (node : WorkflowNode) (activity : ActivityInstance) : Prog Unit :=
  match node.notification with
  | some config => enqueueNotification activity "notification" (svc.notificationFromConfig ctx config)
  | none => pure ()

/-- One activity row, its event, its timers, and its delivery intent if it is a notification. -/
def scheduleActivity (ctx : InstanceCtx) (node : WorkflowNode) (assigneeRole : Option String)
    (round : Int) (fanout : Option FanoutMark) : Prog ActivityInstance :=
  if node.kind == .subWorkflow then
    .fail (.validation s!"node '{node.id}' is a sub_workflow node — child-instance orchestration is not wired in this build")
  else do
    let activity ← stmt (.insertActivity ctx.tenantId node.id (instantiatedActivityType node.kind)
      assigneeRole round)
    append .activityScheduled (scheduledPayload activity node assigneeRole round fanout) none
    scheduleTimers node activity
    svc.enqueueDelivery ctx node activity
    pure activity

/-- The callback intent of an instance, read back from `workflow.started.v1`. -/
def terminalCallback : Prog (Option TerminalCallback) := do
  let events ← stmt .loadEvents
  match events.find? fun e => e.eventType == .started with
  | none => pure none
  | some started =>
    match started.payload.get "terminal_callback" with
    | none | some .null => pure none
    | some value =>
      match TerminalCallback.ofJson value with
      | .ok tc => pure (some tc)
      | .error e => .fail (.serialization s!"terminal_callback payload invalid: {e}")

def callbackIdempotencyKey (ctx : InstanceCtx) (tc : TerminalCallback) : IdempotencyKeyStrategy → String
  | .businessKey => s!"{ctx.businessType}:{ctx.businessKey}"
  | .outboxRecordId => ctx.instanceId
  | .payloadField field =>
    ((tc.payload.get field).bind Json.asStr).getD s!"{ctx.businessType}:{ctx.businessKey}"

/-- The outbox intent of the terminal callback, anchored at an activity. -/
def enqueueTerminalCallback (ctx : InstanceCtx) (tc : TerminalCallback) : Prog Unit := do
  let active ← stmt .activeActivity
  let all ← stmt .listActivities
  match active.or all.getLast? with
  | none => .fail (.invalidState "terminal callback needs an activity anchor but none exists")
  | some anchor =>
    match svc.registry.get tc.handlerType with
    | none => .fail (.validation s!"terminal callback handler '{tc.handlerType}' is not registered")
    | some strategy =>
      stmt (.enqueueOutbox ⟨anchor.id, "business_callback", .businessCallback {
        tenantId := ctx.tenantId
        facilityId := ctx.facilityId
        workflowInstanceId := ctx.instanceId
        activityInstanceId := anchor.id
        handlerType := tc.handlerType
        idempotencyKey := callbackIdempotencyKey ctx tc strategy
        businessType := ctx.businessType
        businessKey := ctx.businessKey
        payload := tc.payload }⟩)

/-- The business side effect of an approved instance, if its start asked for one. -/
def runTerminalCallback (ctx : InstanceCtx) : Prog Unit := do
  match ← terminalCallback with
  | some tc => svc.enqueueTerminalCallback ctx tc
  | none => pure ()

def completeInstance (ctx : InstanceCtx) (result : WorkflowResult) : Prog Unit := do
  if ← stmt (.completeWorkflowCas result) then do
    append .completed (completedPayload result) none
    whenever (result == .approved) (svc.runTerminalCallback ctx)
  else .fail (.conflict "instance left 'active' before completion")

/-- The result of the status update is not looked at. -/
def failInstance (reason : String) : Prog Unit := do
  let _ ← stmt .errorWorkflow
  append .errored (erroredPayload reason) none

/-- The branch template of the first for-each that fans out into a join. -/
def joinTemplate (nodes : List WorkflowNode) (joinId : String) : Option String :=
  nodes.findSome? fun node =>
    node.forEach.bind fun f => if f.2.2.1 = joinId then some f.2.1 else none

/-- Expected count and branch node ids of a join, given the branch count its round recorded. -/
def branchExpectation (snapshot : DefinitionSnapshot) (joinId : String) :
    Option Int → Except FlowError (Int × List String)
  | some n =>
    match joinTemplate snapshot.nodes joinId with
    | some template => .ok (n, [template])
    | none => .error (.invalidState s!"join '{joinId}' has a fan-out event but no ForEach source")
  | none =>
    let ids := (joinIncoming snapshot.transitions joinId).map WorkflowTransition.source
    .ok (ids.length, ids)

section
variable (next : AdvanceOutcome → ResolveTrace → Prog Unit) (ctx : InstanceCtx)
  (source : ActivityInstance) (round : Int)

/-- Branch node ids and expected count of a join: those of the for-each that fanned out in this
round, else the static incoming edges. -/
def joinExpectation (joinNode : WorkflowNode) : Prog (Int × List String) := do
  let dynamic ← stmt (.forEachBranchCount joinNode.id round)
  ofExcept (branchExpectation ctx.snapshot joinNode.id dynamic)

/-- Skip what is still active besides `exclude`. -/
def skipRemaining (joinNode : WorkflowNode) (exclude : Option Uuid) : Prog Unit := do
  let skipped ← skipOtherActiveActivities (exclude.getD Uuid.nil)
  whenever (skipped > 0)
    (append .activitySkipped (siblingsSkippedPayload joinNode.id skipped) none)

/-- The join lets go: the other branches are skipped where the strategy says so, and the outcome of
its APPROVED edge is applied (`next`). -/
def satisfyJoin (joinNode : WorkflowNode) (arrived expected : Int) (exclude : Option Uuid) : Prog Unit := do
  append .parallelJoinSatisfied (joinSatisfiedPayload joinNode.id arrived expected round) none
  whenever (joinNode.joinStrategy.getD .waitAll).skipsRemainingOnSatisfaction
    (skipRemaining joinNode exclude)
  let decision := decideAdvance svc.cel ctx.snapshot.nodes ctx.snapshot.transitions ctx.context
    joinNode.id .approved
  next decision.1 decision.2

def trySatisfyJoin (joinNode : WorkflowNode) (exclude : Option Uuid) : Prog Unit := do
  let expectation ← joinExpectation ctx round joinNode
  let arrived ← stmt (.countCompletedBranches expectation.2 round)
  if (joinNode.joinStrategy.getD .waitAll).isSatisfied arrived expectation.1 then
    svc.satisfyJoin next ctx round joinNode arrived expectation.1 exclude
  else stmt .clearCurrentActivity

def branchReachedJoin (joinNode : WorkflowNode) : Prog Unit := do
  append .branchReachedJoin (branchReachedPayload source.activityDefinitionId joinNode.id round) none
  svc.trySatisfyJoin next ctx round joinNode (some source.id)

/-- One activity per branch, in order. -/
def scheduleBranches (via : String) (targets : List ParallelTarget) : Prog Unit :=
  targets.forM fun target => do
    let node ← ofExcept (ctx.node target.nodeId)
    let _ ← svc.scheduleActivity ctx node target.assigneeRole round
      (some ⟨via, target.itemIndex, target.itemPayload⟩)
    pure ()

def fanOut (targets : List ParallelTarget) (trace : ResolveTrace) : Prog Unit := do
  stmt .clearCurrentActivity
  match trace.forEachFanOut with
  | some fan => do
    append .forEachFannedOut (forEachFannedOutPayload fan targets.length round) none
    svc.scheduleBranches ctx round "for_each" targets
    -- an empty collection has no arrival that could look at the join later
    if targets.isEmpty then do
      let joinNode ← ofExcept (ctx.node fan.joinTarget)
      svc.trySatisfyJoin next ctx round joinNode none
    else pure ()
  | none => do
    append .parallelSplitScheduled (splitScheduledPayload source.activityDefinitionId targets round) none
    svc.scheduleBranches ctx round "parallel_split" targets

/-- The instance goes back to the rework target, in a new round. -/
def applyRework (targetNode : String) (assigneeRole : Option String) : Prog Unit := do
  let nextRound := (← stmt .maxRound) + 1
  match svc.checkRound ctx nextRound with
  | .error e => do
    failInstance e.toText
    .fail e
  | .ok _ => do
    let node ← ofExcept (ctx.node targetNode)
    let activity ← svc.scheduleActivity ctx node assigneeRole nextRound none
    if ← stmt (.enterReturnedWaiting activity.id) then
      append .returnedToRework
        (returnedToReworkPayload source.activityDefinitionId node.id nextRound activity.id assigneeRole) none
    else .fail (.conflict "instance left 'active' before the rework hand-back")

/-- The branch of `apply_outcome` for each outcome. -/
def applyArm (outcome : AdvanceOutcome) (trace : ResolveTrace) : Prog Unit :=
  match outcome with
  | .advance targetNode assigneeRole => do
    let node ← ofExcept (ctx.node targetNode)
    if node.kind == .parallelJoin then
      svc.branchReachedJoin next ctx source round node
    else do
      let activity ← svc.scheduleActivity ctx node assigneeRole round none
      let _ ← stmt (.updateCurrentActivity activity.id)
      pure ()
  | .advanceMulti targets => svc.fanOut next ctx source round targets trace
  | .complete result => svc.completeInstance ctx result
  | .rework targetNode assigneeRole => svc.applyRework ctx source targetNode assigneeRole
  | .error => failInstance s!"no legal transition from '{source.activityDefinitionId}' (round {round})"

/-- Serial merges leave a fact, not a row. -/
def appendMerges (trace : ResolveTrace) : Prog Unit :=
  trace.mergesPassed.forM fun mergeNode =>
    append .mergePassed (mergePassedPayload source.activityDefinitionId mergeNode round) none

/-- Apply an outcome decided for `source`. A join that fires applies the outcome of its own edge in
turn; the first argument bounds how often, and running out of it stands for not returning. -/
def applyOutcome : Nat → AdvanceOutcome → ResolveTrace → Prog Unit
  | 0, _, _ => .diverge
  | fuel + 1, outcome, trace => .mark source.id do
    appendMerges source round trace
    svc.applyArm (applyOutcome fuel) ctx source round outcome trace

end
end WorkflowService
end Fusions.Hetuflow
