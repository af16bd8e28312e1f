import Fusions.Hetuflow.Service.Outcome

/-! The orchestration service's operations: start, signal, resubmit, timers, delivery follow-ups. -/
namespace Fusions.Hetuflow
open Fusions.Library Program

structure StartCommand where
  tenantId : Int
  facilityId : Uuid
  definitionId : Uuid
  snapshot : DefinitionSnapshot
  referenceNo : String
  businessType : String
  businessKey : String
  context : Option Json
  terminalCallback : Option TerminalCallback

structure StartOutcome where
  inst : WorkflowInstance
  created : Bool
  activeActivities : List ActivityInstance

structure SignalCommand where
  scope : ScopeFilter
  instanceId : Uuid
  signal : SignalType
  activityId : Option Uuid
  idempotencyKey : String
  actorUserId : Int
  reviewNotes : Option String
  eventType : Option String
  assigneeId : Option Int
  contextPatch : Option Json

structure SignalOutcome where
  inst : WorkflowInstance
  activeActivities : List ActivityInstance
  replayed : Bool

structure ProjectionVerification where
  instanceId : Uuid
  eventCount : Nat
  consistent : Bool
  differences : List String

/-- `char::is_whitespace`: the Unicode property White_Space. -/
def isWhitespace (c : Char) : Bool :=
  let n := c.toNat
  (9 ≤ n && n ≤ 13) || n == 32 || n == 0x85 || n == 0xA0 || n == 0x1680 || (0x2000 ≤ n && n ≤ 0x200A) ||
    n == 0x2028 || n == 0x2029 || n == 0x202F || n == 0x205F || n == 0x3000

/-- `key.trim().is_empty()`. -/
def isBlank (s : String) : Bool := s.toList.all isWhitespace

/-- `{:?}` of a list of strings. -/
def debugStrings (xs : List String) : String :=
  "[" ++ ", ".intercalate (xs.map debugString) ++ "]"

/-- The signal must be one that the node's kind declares. -/
def checkSignalAgainstNode (node : WorkflowNode) (signal : SignalType) (eventType : Option String) :
    Except FlowError Unit :=
  match signal with
  | .claimed | .reassigned =>
    match node.kind with
    | .approval | .assignment => .ok ()
    | other => .error (.validation
        s!"{signal.debug} targets an approval/assignment node, got {other.debug}")
  | .approved | .rejected | .returned =>
    match node.kind with
    | .approval => .ok ()
    | other => .error (.validation s!"{signal.debug} targets an approval node, got {other.debug}")
  | .completed =>
    match node.kind with
    | .notification | .assignment => .ok ()
    | other => .error (.validation
        s!"COMPLETED targets a notification/assignment node, got {other.debug}")
  | .eventReceived =>
    match node.eventWait with
    | none => .error (.validation
        s!"EVENT_RECEIVED targets an event_wait node, got {node.kind.debug}")
    | some (declared, _, _) =>
      match eventType with
      | none => .error (.validation "EVENT_RECEIVED requires event_type")
      | some given =>
        if given = declared then .ok ()
        else .error (.validation
          s!"event_type '{given}' does not match node '{node.id}' declared '{declared}'")
  | .resubmitted => .error (.validation
      "RESUBMITTED is not a signal — use WorkflowService::resubmit")

/-- Activity result of a signal; an event leaves none. -/
def signalResult : SignalType → Option String
  | .approved => some "approved"
  | .rejected => some "rejected"
  | .returned => some "returned"
  | .completed => some "completed"
  | _ => none

def signalStr : SignalType → String
  | .approved => "approved"
  | .returned => "returned"
  | .rejected => "rejected"
  | .resubmitted => "resubmitted"
  | .eventReceived => "event_received"
  | .claimed => "claimed"
  | .reassigned => "reassigned"
  | .completed => "completed"

section payloads

def assigneePayload (signal : SignalType) (activityId : Uuid) (assigneeId : Option Int) : Json :=
  .obj [("signal_type", .str (signalStr signal)), ("target_activity_id", .str activityId),
        ("assignee_id", .ofOption (assigneeId.map toString))]

def reviewPayload (signal : SignalType) (activityId : Uuid) (actorUserId : Int)
    (reviewNotes : Option String) : Json :=
  .obj [("signal_type", .str (signalStr signal)), ("target_activity_id", .str activityId),
        ("reviewer_id", .str (toString actorUserId)), ("review_notes", .ofOption reviewNotes)]

def contextUpdatedPayload (node : WorkflowNode) (round : Int) : Json :=
  .obj [("node", .str node.id), ("keys", .arr (node.contextWrites.map .str)), ("round", .num round)]

def reworkResumedPayload (activity : ActivityInstance) : Json :=
  .obj [("rework_target", .str activity.activityDefinitionId), ("round", .num activity.round)]

def reactivatedPayload (round : Int) : Json := .obj [("round", .num round)]

def timerFiredPayload (timerKind : String) (activityId : Uuid) (nodeId : String) : Json :=
  .obj [("timer_kind", .str timerKind), ("activity_id", .str activityId),
        ("activity_definition_id", .str nodeId)]

def escalatedPayload (activityId : Uuid) (fromRole : Option String) (toRole : String) : Json :=
  .obj [("activity_id", .str activityId), ("from_role", .ofOption fromRole), ("to_role", .str toRole)]

def timedOutPayload (activityId : Uuid) : Json := .obj [("activity_id", .str activityId)]

def deliveredPayload (activityId : Uuid) : Json :=
  .obj [("activity_id", .str activityId), ("result", .null), ("source", .str "notification_outbox")]

def deadLetterPayload (activityId : Uuid) (activityType lastError : String) : Json :=
  .obj [("activity_id", .str activityId), ("outbox_activity_type", .str activityType),
        ("error", .str lastError)]

def startedPayload (cmd : StartCommand) (hash : String) : Json :=
  .obj [("flow_type", .str cmd.snapshot.flowType), ("version", .num cmd.snapshot.version),
        ("definition_hash", .str hash), ("business_type", .str cmd.businessType),
        ("business_key", .str cmd.businessKey), ("context", cmd.context.getD .null),
        ("terminal_callback",
          match cmd.terminalCallback with
          | some tc => tc.toJson
          | none => .null)]

end payloads

def resolveTargetActivity (cmd : SignalCommand) : Prog ActivityInstance :=
  match cmd.activityId with
  | some id => do
    match ← stmt (.loadActivity id) with
    | none => .fail (.notFound s!"activity {id} not found")
    | some activity =>
      if activity.workflowInstanceId != cmd.instanceId then
        .fail (.validation s!"activity {id} does not belong to instance {cmd.instanceId}")
      else if activity.status != .active then
        .fail (.conflict s!"activity {id} is {activity.status.asStr}, not active")
      else pure activity
  | none => do
    match ← stmt .activeActivities with
    | [] => .fail (.conflict s!"workflow instance {cmd.instanceId} has no active activity")
    | [activity] => pure activity
    | active => .fail (.validation
        s!"workflow instance {cmd.instanceId} has {active.length} active activities — activity_id is required")

/-- The declared keys of the patch; a declared key that is absent is refused. -/
def filterPatch (nodeId : String) (patch : Json) : List String → Except FlowError (List (String × Json))
  | [] => .ok []
  | key :: keys =>
    match patch.get key with
    | none => .error (.validation
        s!"node '{nodeId}' context_writes key '{key}' missing from the context patch")
    | some value =>
      match filterPatch nodeId patch keys with
      | .ok rest => .ok ((key, value) :: rest)
      | .error e => .error e

/-- Merge the declared keys into the context; the context in force afterwards. -/
def applyContextWrites (ctx : InstanceCtx) (node : WorkflowNode) (round : Int) (patch : Option Json) :
    Prog InstanceCtx :=
  if node.contextWrites.isEmpty then pure ctx
  else
    match patch with
    | some (.obj fields) => do
      let filtered ← ofExcept (filterPatch node.id (.obj fields) node.contextWrites)
      let merged ← stmt (.mergeInstanceContext (.obj filtered))
      append .contextUpdated (contextUpdatedPayload node round) none
      pure { ctx with context := some merged }
    | _ => .fail (.validation
        s!"node '{node.id}' declares context_writes {debugStrings node.contextWrites} but the signal carried no context patch object")

/-- Claim and reassign move the assignee only. -/
def signalAssignee (cmd : SignalCommand) (ctx : InstanceCtx) (activity : ActivityInstance) :
    Prog SignalOutcome := do
  let _ ← stmt (.updateActivityAssignee activity.id cmd.assigneeId)
  append .signalReceived (assigneePayload cmd.signal activity.id cmd.assigneeId) (some cmd.idempotencyKey)
  let inst ← reload ctx
  let active ← stmt .activeActivities
  pure ⟨inst, active, false⟩

/-- A signal whose instance is returned-waiting brings it back to active. -/
def resumeIfWaiting (status : WorkflowStatus) (activity : ActivityInstance) : Prog Unit :=
  if status == .returnedWaiting then do
    if ← stmt .resumeFromReturnedWaiting then
      append .reworkResumed (reworkResumedPayload activity) none
    else pure ()
  else pure ()

namespace WorkflowService
variable (svc : WorkflowService) (fuel : Nat)

/-- Every other signal completes its activity and advances the graph. -/
def signalAdvance (cmd : SignalCommand) (status : WorkflowStatus) (ctx : InstanceCtx)
    (activity : ActivityInstance) (node : WorkflowNode) : Prog SignalOutcome := do
  let ctx ← applyContextWrites ctx node activity.round cmd.contextPatch
  append .signalReceived (reviewPayload cmd.signal activity.id cmd.actorUserId cmd.reviewNotes)
    (some cmd.idempotencyKey)
  completeActivity activity (signalResult cmd.signal) cmd.actorUserId cmd.reviewNotes
  -- before any statement that asks for an active instance
  resumeIfWaiting status activity
  let decision := decideAdvance svc.cel ctx.snapshot.nodes ctx.snapshot.transitions ctx.context
    activity.activityDefinitionId cmd.signal
  svc.applyOutcome ctx activity activity.round fuel decision.1 decision.2
  let inst ← reload ctx
  let active ← stmt .activeActivities
  pure ⟨inst, active, false⟩

/-- The part of `signal` after the idempotency check. -/
def signalFresh (cmd : SignalCommand) (inst : WorkflowInstance) : Prog SignalOutcome :=
  if inst.status.isTerminal then
    .fail (.conflict s!"workflow instance {cmd.instanceId} is already terminal ({inst.status.asStr})")
  else do
    let snapshot ← stmt .loadSnapshot
    let ctx := InstanceCtx.ofInstance inst snapshot
    let activity ← resolveTargetActivity cmd
    let node ← ofExcept (ctx.node activity.activityDefinitionId)
    ofExcept (checkSignalAgainstNode node cmd.signal cmd.eventType)
    if cmd.signal == .claimed || cmd.signal == .reassigned then signalAssignee cmd ctx activity
    else svc.signalAdvance fuel cmd inst.status ctx activity node

def signal (cmd : SignalCommand) : Prog SignalOutcome :=
  if isBlank cmd.idempotencyKey then .fail (.validation "idempotency_key is required")
  else do
    match ← stmt (.loadInstanceForUpdateScoped cmd.scope) with
    | none => .fail (.notFound s!"workflow instance {cmd.instanceId} not visible")
    | some inst =>
      if ← stmt (.idempotencySeen cmd.idempotencyKey) then do
        let active ← stmt .activeActivities
        pure ⟨inst, active, true⟩
      else svc.signalFresh fuel cmd inst

/-- Reactivate a completed(returned) instance and schedule its entry activity in a new round. -/
def reenter (inst : WorkflowInstance) (idempotencyKey : String) : Prog SignalOutcome := do
  let snapshot ← stmt .loadSnapshot
  let ctx := InstanceCtx.ofInstance inst snapshot
  let round := (← stmt .maxRound) + 1
  ofExcept (svc.checkRound ctx round)
  if ← stmt .reactivateWorkflow then do
    append .reactivated (reactivatedPayload round) (some idempotencyKey)
    match decideStart snapshot.nodes with
    | none => .fail (.validation "definition has no approval node to re-enter")
    | some (entryId, entryRole) => do
      let node ← ofExcept (ctx.node entryId)
      let activity ← svc.scheduleActivity ctx node entryRole round none
      let _ ← stmt (.updateCurrentActivity activity.id)
      let inst ← reload ctx
      let active ← stmt .activeActivities
      pure ⟨inst, active, false⟩
  else .fail (.conflict "reactivate lost the race (instance no longer completed/returned)")

def resubmit (scope : ScopeFilter) (instanceId : Uuid) (idempotencyKey : String) : Prog SignalOutcome :=
  if isBlank idempotencyKey then .fail (.validation "idempotency_key is required")
  else do
    match ← stmt (.loadInstanceForUpdateScoped scope) with
    | none => .fail (.notFound s!"workflow instance {instanceId} not visible")
    | some inst =>
      if ← stmt (.idempotencySeen idempotencyKey) then do
        let active ← stmt .activeActivities
        pure ⟨inst, active, true⟩
      else if inst.status == .completed && inst.result == some .returned then
        svc.reenter inst idempotencyKey
      else .fail (.invalidState
        s!"resubmit requires a completed(returned) instance, got {inst.status.asStr} ({debugOption WorkflowResult.debug inst.result})")

/-- The reminder arm of `fire_timer`. -/
def fireReminder (ctx : InstanceCtx) (activity : ActivityInstance) (node : WorkflowNode) : Prog Bool := do
  enqueueNotification activity "notification_reminder"
    (svc.notificationPayload ctx svc.config.reminderTemplateCode
      (node.assigneeRole.or activity.assigneeRole) node)
  pure true

/-- The escalation arm of `fire_timer`. -/
def fireEscalation (ctx : InstanceCtx) (activity : ActivityInstance) (node : WorkflowNode) : Prog Bool :=
  match node.escalationConfig with
  | none => pure false
  | some (_, toRole) => do
    if ← stmt (.updateActivityAssigneeRole activity.id toRole) then do
      append .approvalEscalated (escalatedPayload activity.id activity.assigneeRole toRole) none
      enqueueNotification activity "notification_escalation"
        (svc.notificationPayload ctx svc.config.escalationTemplateCode (some toRole) node)
      pure true
    else pure true

/-- The timeout arm of `fire_timer`. The result of the skip is not looked at. -/
def fireTimeout (ctx : InstanceCtx) (activity : ActivityInstance) : Prog Bool := do
  let _ ← stmt (.skipActivityForTimeout activity.id)
  stmt (.cancelTimersForActivity activity.id)
  append .activitySkipped (timedOutPayload activity.id) none
  let decision := decideEventWaitTimeout svc.cel ctx.snapshot.nodes ctx.snapshot.transitions
    ctx.context activity.activityDefinitionId
  svc.applyOutcome ctx activity activity.round fuel decision.1 decision.2
  pure true

/-- A due timer of an active activity. -/
def fireDue (timer : TimerRecord) (inst : WorkflowInstance) (activity : ActivityInstance) : Prog Bool := do
  let snapshot ← stmt .loadSnapshot
  let ctx := InstanceCtx.ofInstance inst snapshot
  let node ← ofExcept (ctx.node activity.activityDefinitionId)
  append .timerFired (timerFiredPayload timer.timerKind activity.id node.id) none
  if timer.timerKind == "reminder" then svc.fireReminder ctx activity node
  else if timer.timerKind == "escalation" then svc.fireEscalation ctx activity node
  else if timer.timerKind == "timeout" then svc.fireTimeout fuel ctx activity
  else .fail (.invalidState s!"unknown timer_kind '{timer.timerKind}'")

def fireTimer (timer : TimerRecord) : Prog Bool := do
  if ← stmt (.markTimerFired timer.id) then do
    match ← stmt .loadInstance with
    | none => pure false
    | some inst =>
      if inst.status.isTerminal then pure false
      else do
        match ← stmt (.loadActivity timer.activityInstanceId) with
        | none => pure false
        | some activity =>
          if activity.status != .active then pure false
          else svc.fireDue fuel timer inst activity
  else pure false

/-- The delivery completes a notification activity. The result of the completion is not looked at. -/
def completeDelivered (inst : WorkflowInstance) (activity : ActivityInstance) : Prog Unit := do
  let snapshot ← stmt .loadSnapshot
  let ctx := InstanceCtx.ofInstance inst snapshot
  let _ ← stmt (.completeActivityCas activity.id none 0 none)
  stmt (.cancelTimersForActivity activity.id)
  append .activityCompleted (deliveredPayload activity.id) none
  let decision := decideAdvance svc.cel ctx.snapshot.nodes ctx.snapshot.transitions ctx.context
    activity.activityDefinitionId .completed
  svc.applyOutcome ctx activity activity.round fuel decision.1 decision.2

def onNotificationDelivered (activityId : Uuid) : Prog Unit := do
  match ← stmt .loadInstance with
  | none => pure ()
  | some inst =>
    if inst.status.isTerminal then pure ()
    else do
      match ← stmt (.loadActivity activityId) with
      | none => pure ()
      | some activity =>
        -- reminders and escalations ride an approval, which their delivery does not complete
        if activity.status != .active || activity.activityType != .notification then pure ()
        else svc.completeDelivered fuel inst activity

def onBusinessCallbackDelivered : Prog Unit := do
  let _ ← stmt .markSideEffectsExecuted
  pure ()

def onOutboxDeadLetter (activityId : Uuid) (activityType lastError : String) : Prog Unit := do
  match ← stmt .loadInstance with
  | none => pure ()
  | some _ =>
    append .activityFailed (deadLetterPayload activityId activityType lastError) none

/-- Rebuild the projection from the event log and compare it with the live rows. -/
def verifyProjection (scope : ScopeFilter) (instanceId : Uuid) : Prog ProjectionVerification := do
  match ← stmt (.getInstanceScoped scope) with
  | none => .fail (.notFound s!"workflow instance {instanceId} not visible")
  | some inst => do
    let snapshot ← stmt .loadSnapshot
    let events ← stmt .loadEvents
    let activities ← stmt .listActivities
    let differences := diffProjection (foldEvents snapshot events) inst activities
    pure ⟨instanceId, events.length, differences.isEmpty, differences⟩

/-- The checks of `start` before it writes: the entry activity of the definition. -/
def checkStart (cmd : StartCommand) : Except FlowError (String × Option String) := do
  validateDefinition svc.cel cmd.snapshot.nodes cmd.snapshot.transitions
  match decideStart cmd.snapshot.nodes with
  | none => .error (.validation
      "definition has no approval node to enter (decide_start found no entry activity)")
  | some entry => do
    match cmd.terminalCallback with
    | none => .ok entry
    | some tc => do
      reject (tc.handlerType == "") "terminal_callback.handler_type must not be empty"
      reject (!svc.registry.contains tc.handlerType)
        s!"terminal callback handler '{tc.handlerType}' is not registered (known: {debugStrings svc.registry.handlerTypes})"
      .ok entry

/-- The part of `start` after the instance row is inserted. -/
def startInserted (cmd : StartCommand) (inst : WorkflowInstance) (entryId : String)
    (entryRole : Option String) : Prog StartOutcome := do
  let ctx := InstanceCtx.mk inst.id cmd.tenantId cmd.facilityId cmd.snapshot cmd.context
    cmd.businessType cmd.businessKey cmd.referenceNo
  append .started (startedPayload cmd (svc.definitionHash cmd.snapshot)) none
  let node ← ofExcept (ctx.node entryId)
  let activity ← svc.scheduleActivity ctx node entryRole 1 none
  let _ ← stmt (.updateCurrentActivity activity.id)
  let inst ← reload ctx
  let active ← stmt .activeActivities
  pure ⟨inst, true, active⟩

end WorkflowService
end Fusions.Hetuflow
