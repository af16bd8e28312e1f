import Fusions.Hetuflow.Core.Json

/-! Domain types of the workflow engine: statuses, the definition graph, and the projection rows. -/
namespace Fusions.Hetuflow

/-- A uuid in its canonical text. -/
abbrev Uuid := String

/-- `Uuid::nil()`. -/
def Uuid.nil : Uuid := "00000000-0000-0000-0000-000000000000"

/-- Database clock readings. -/
abbrev Time := Int

inductive FlowError where
  | validation (message : String)
  | notFound (message : String)
  | conflict (message : String)
  | storage (message : String)
  | serialization (message : String)
  | invalidState (message : String)
  deriving DecidableEq, Repr

inductive WorkflowStatus where
  | pending
  | active
  | completed
  | errored
  | cancelled
  | returnedWaiting
  deriving DecidableEq, Repr

namespace WorkflowStatus

def isTerminal : WorkflowStatus → Bool
  | .completed | .errored | .cancelled => true
  | _ => false

def asStr : WorkflowStatus → String
  | .pending => "pending"
  | .active => "active"
  | .completed => "completed"
  | .errored => "errored"
  | .cancelled => "cancelled"
  | .returnedWaiting => "returned_waiting"

/-- `{:?}`. -/
def debug : WorkflowStatus → String
  | .pending => "Pending"
  | .active => "Active"
  | .completed => "Completed"
  | .errored => "Errored"
  | .cancelled => "Cancelled"
  | .returnedWaiting => "ReturnedWaiting"

/-- The declared transitions. -/
def tryTransition (self target : WorkflowStatus) : Except FlowError WorkflowStatus :=
  match self, target with
  | .pending, .active => .ok .active
  | .active, .completed => .ok .completed
  | .active, .errored => .ok .errored
  | .active, .cancelled => .ok .cancelled
  | .completed, .active => .ok .active
  | .active, .returnedWaiting => .ok .returnedWaiting
  | .returnedWaiting, .active => .ok .active
  | .returnedWaiting, .completed => .ok .completed
  | _, _ => .error (.invalidState s!"{self.debug} cannot transition to {target.debug}")

/-- The number stored in `workflow_instances.status`. -/
def asI16 : WorkflowStatus → Int
  | .pending => 1
  | .active => 2
  | .completed => 3
  | .errored => 4
  | .cancelled => 5
  | .returnedWaiting => 6

def fromI16 (n : Int) : WorkflowStatus :=
  if n = 1 then .pending else if n = 2 then .active else if n = 3 then .completed
  else if n = 4 then .errored else if n = 5 then .cancelled else if n = 6 then .returnedWaiting
  else .errored

/-- The rows below hold the status itself: reading back the stored number loses nothing. -/
theorem fromI16_asI16 (s : WorkflowStatus) : fromI16 s.asI16 = s := by
  cases s <;> rfl

/-- The statuses in the partial unique index, `status IN (1, 2)`. -/
def indexed (s : WorkflowStatus) : Bool := s.asI16 == 1 || s.asI16 == 2

end WorkflowStatus

inductive ActivityType where
  | start
  | approval
  | notification
  | endNode
  | condition
  | parallel
  | timer
  | eventWait
  | parallelSplit
  | parallelJoin
  | assignment
  | merge
  | forEach
  | subWorkflow
  deriving DecidableEq, Repr

def ActivityType.asStr : ActivityType → String
  | .start => "start"
  | .approval => "approval"
  | .notification => "notification"
  | .endNode => "end"
  | .condition => "condition"
  | .parallel => "parallel"
  | .timer => "timer"
  | .eventWait => "event_wait"
  | .parallelSplit => "parallel_split"
  | .parallelJoin => "parallel_join"
  | .assignment => "assignment"
  | .merge => "merge"
  | .forEach => "for_each"
  | .subWorkflow => "sub_workflow"

inductive ActivityStatus where
  | pending
  | active
  | completed
  | skipped
  | errored
  deriving DecidableEq, Repr

namespace ActivityStatus

def asStr : ActivityStatus → String
  | .pending => "pending"
  | .active => "active"
  | .completed => "completed"
  | .skipped => "skipped"
  | .errored => "errored"

/-- `{:?}`. -/
def debug : ActivityStatus → String
  | .pending => "Pending"
  | .active => "Active"
  | .completed => "Completed"
  | .skipped => "Skipped"
  | .errored => "Errored"

end ActivityStatus

inductive SignalType where
  | approved
  | returned
  | rejected
  | resubmitted
  | eventReceived
  | claimed
  | reassigned
  | completed
  deriving DecidableEq, Repr

/-- `{:?}`. -/
def SignalType.debug : SignalType → String
  | .approved => "Approved"
  | .returned => "Returned"
  | .rejected => "Rejected"
  | .resubmitted => "Resubmitted"
  | .eventReceived => "EventReceived"
  | .claimed => "Claimed"
  | .reassigned => "Reassigned"
  | .completed => "Completed"

inductive WorkflowResult where
  | approved
  | rejected
  | returned
  deriving DecidableEq, Repr

namespace WorkflowResult

def asStr : WorkflowResult → String
  | .approved => "approved"
  | .rejected => "rejected"
  | .returned => "returned"

/-- `{:?}`. -/
def debug : WorkflowResult → String
  | .approved => "Approved"
  | .rejected => "Rejected"
  | .returned => "Returned"

def fromDb (s : String) : Option WorkflowResult :=
  if s = "approved" then some .approved else if s = "rejected" then some .rejected
  else if s = "returned" then some .returned else none

@[simp] theorem fromDb_asStr (r : WorkflowResult) : fromDb r.asStr = some r := by
  cases r <;> rfl

end WorkflowResult

/-- When a join lets its downstream go. -/
inductive JoinStrategy where
  | waitAll
  | waitAny
  | nOfM (n : Int)
  deriving DecidableEq, Repr

namespace JoinStrategy

def isSatisfied (s : JoinStrategy) (arrived expected : Int) : Bool :=
  match s with
  | .waitAll => arrived ≥ expected
  | .waitAny => arrived ≥ 1
  | .nOfM n => arrived ≥ n

def skipsRemainingOnSatisfaction : JoinStrategy → Bool
  | .waitAll => false
  | _ => true

/-- More arrivals never unsatisfy a join. -/
theorem isSatisfied_mono {s : JoinStrategy} {a b e : Int} (h : s.isSatisfied a e) (hab : a ≤ b) :
    s.isSatisfied b e := by
  cases s <;> simp only [isSatisfied, decide_eq_true_eq, ge_iff_le] at h ⊢ <;> omega

end JoinStrategy

inductive RecipientSelector where
  | role (roleCode : String) (facilityId : Option String)
  | userIds (userIds : List String)
  | businessOwner (referenceType referenceId : String) (ownerKind : Option String)
  | customResolver (resolverCode : String) (args : List (String × String))
  deriving DecidableEq, Repr

structure NotificationConfig where
  templateCode : Option String
  recipientSelector : Option RecipientSelector
  notificationTypes : List String
  templateArgs : List (String × String)
  referenceType : Option String
  purpose : Option String
  visibility : Option String
  deriving DecidableEq, Repr

structure AssignmentConfig where
  assigneeSelector : Option RecipientSelector
  queueCode : Option String
  slaSeconds : Option Int
  deriving DecidableEq, Repr

/-- One branch of a condition node, taken when its CEL guard is the first true one. -/
structure ConditionBranch where
  guardExpression : String
  target : String
  deriving DecidableEq, Repr

inductive NodeConfig where
  | start
  | approval (assigneeRole : Option String) (slaSeconds escalationSeconds : Option Int)
      (escalationTargetRole : Option String)
  | notification (config : NotificationConfig)
  | endNode (resultCode : Option String)
  | condition (defaultTarget : String) (branches : List ConditionBranch)
  | parallel
  | timer
  | eventWait (eventType : String) (timeoutSeconds : Option Int) (timeoutTarget : Option String)
  | parallelSplit (branchTargets : List String)
  | parallelJoin (strategy : JoinStrategy)
  | assignment (config : AssignmentConfig)
  | merge
  | forEach (itemsPath branchTemplate joinTarget : String) (maxFanout : Option Int)
  | subWorkflow (childFlowType : String) (contextPath onChildFailedTarget : Option String)
  deriving DecidableEq, Repr

inductive NodeKind where
  | start
  | approval
  | notification
  | endNode
  | condition
  | parallel
  | timer
  | eventWait
  | parallelSplit
  | parallelJoin
  | assignment
  | merge
  | forEach
  | subWorkflow
  deriving DecidableEq, Repr

/-- `{:?}`. -/
def NodeKind.debug : NodeKind → String
  | .start => "Start"
  | .approval => "Approval"
  | .notification => "Notification"
  | .endNode => "End"
  | .condition => "Condition"
  | .parallel => "Parallel"
  | .timer => "Timer"
  | .eventWait => "EventWait"
  | .parallelSplit => "ParallelSplit"
  | .parallelJoin => "ParallelJoin"
  | .assignment => "Assignment"
  | .merge => "Merge"
  | .forEach => "ForEach"
  | .subWorkflow => "SubWorkflow"

structure WorkflowNode where
  id : String
  name : String
  contextWrites : List String
  config : NodeConfig
  deriving DecidableEq, Repr

namespace WorkflowNode

def kind (n : WorkflowNode) : NodeKind :=
  match n.config with
  | .start => .start
  | .approval .. => .approval
  | .notification _ => .notification
  | .endNode _ => .endNode
  | .condition .. => .condition
  | .parallel => .parallel
  | .timer => .timer
  | .eventWait .. => .eventWait
  | .parallelSplit _ => .parallelSplit
  | .parallelJoin _ => .parallelJoin
  | .assignment _ => .assignment
  | .merge => .merge
  | .forEach .. => .forEach
  | .subWorkflow .. => .subWorkflow

/-- The approval role; only approval nodes have one. -/
def assigneeRole (n : WorkflowNode) : Option String :=
  match n.config with
  | .approval role _ _ _ => role
  | _ => none

def slaSeconds (n : WorkflowNode) : Option Int :=
  match n.config with
  | .approval _ sla _ _ => sla.filter (· > 0)
  | _ => none

/-- Escalation delay and role, when both are configured. -/
def escalationConfig (n : WorkflowNode) : Option (Int × String) :=
  match n.config with
  | .approval _ _ secs role => do
    let secs ← secs.filter (· > 0)
    let role ← role.filter (· ≠ "")
    some (secs, role)
  | _ => none

def escalationRaw (n : WorkflowNode) : Option (Option Int × Option String) :=
  match n.config with
  | .approval _ _ secs role => some (secs, role)
  | _ => none

def endResultCode (n : WorkflowNode) : Option String :=
  match n.config with
  | .endNode code => code
  | _ => none

def condition (n : WorkflowNode) : Option (String × List ConditionBranch) :=
  match n.config with
  | .condition default branches => some (default, branches)
  | _ => none

/-- Event type, positive timeout and non-empty timeout target of an event wait. -/
def eventWait (n : WorkflowNode) : Option (String × Option Int × Option String) :=
  match n.config with
  | .eventWait eventType secs target => some (eventType, secs.filter (· > 0), target.filter (· ≠ ""))
  | _ => none

def notification (n : WorkflowNode) : Option NotificationConfig :=
  match n.config with
  | .notification config => some config
  | _ => none

def assignment (n : WorkflowNode) : Option AssignmentConfig :=
  match n.config with
  | .assignment config => some config
  | _ => none

def subWorkflow (n : WorkflowNode) : Option (String × Option String × Option String) :=
  match n.config with
  | .subWorkflow child path failed => some (child, path, failed)
  | _ => none

def parallelSplit (n : WorkflowNode) : Option (List String) :=
  match n.config with
  | .parallelSplit targets => some targets
  | _ => none

def joinStrategy (n : WorkflowNode) : Option JoinStrategy :=
  match n.config with
  | .parallelJoin strategy => some strategy
  | _ => none

/-- Items path, branch template, join and positive fan-out cap of a for-each node. -/
def forEach (n : WorkflowNode) : Option (String × String × String × Option Int) :=
  match n.config with
  | .forEach path template join cap => some (path, template, join, cap.filter (· > 0))
  | _ => none

/-! A node has the config of its kind. -/
section
variable {n : WorkflowNode}

theorem isSome_condition_iff : n.condition.isSome = true ↔ n.kind = .condition := by
  unfold condition kind
  cases n.config <;> simp

theorem isSome_eventWait_iff : n.eventWait.isSome = true ↔ n.kind = .eventWait := by
  unfold eventWait kind
  cases n.config <;> simp

theorem isSome_subWorkflow_iff : n.subWorkflow.isSome = true ↔ n.kind = .subWorkflow := by
  unfold subWorkflow kind
  cases n.config <;> simp

theorem isSome_parallelSplit_iff : n.parallelSplit.isSome = true ↔ n.kind = .parallelSplit := by
  unfold parallelSplit kind
  cases n.config <;> simp

theorem isSome_forEach_iff : n.forEach.isSome = true ↔ n.kind = .forEach := by
  unfold forEach kind
  cases n.config <;> simp

end

end WorkflowNode

structure WorkflowTransition where
  source : String
  target : String
  onSignal : SignalType
  deriving DecidableEq, Repr

/-- The immutable definition bound to an instance at its start. -/
structure DefinitionSnapshot where
  flowType : String
  version : Int
  nodes : List WorkflowNode
  transitions : List WorkflowTransition
  maxRound : Int
  deriving DecidableEq, Repr

structure WorkflowInstance where
  id : Uuid
  tenantId : Int
  facilityId : Uuid
  referenceNo : String
  workflowDefinitionId : Uuid
  businessKey : String
  businessType : String
  status : WorkflowStatus
  currentActivityId : Option Uuid
  result : Option WorkflowResult
  sideEffectsExecuted : Bool
  context : Option Json
  startedAt : Option Time
  completedAt : Option Time
  deriving Repr

structure ActivityInstance where
  id : Uuid
  tenantId : Int
  workflowInstanceId : Uuid
  activityDefinitionId : String
  activityType : ActivityType
  status : ActivityStatus
  assigneeRole : Option String
  assigneeId : Option String
  result : Option String
  reviewNotes : Option String
  reviewedBy : Option String
  reviewedAt : Option Time
  round : Int
  deriving DecidableEq, Repr

/-- A due timer as the poller hands it over. -/
structure TimerRecord where
  id : Uuid
  workflowInstanceId : Uuid
  activityInstanceId : Uuid
  timerKind : String
  deriving DecidableEq, Repr

inductive EventType where
  | started
  | activityScheduled
  | signalReceived
  | activityCompleted
  | activityFailed
  | completed
  | errored
  | reactivated
  | timerFired
  | activitySkipped
  | parallelSplitScheduled
  | branchReachedJoin
  | parallelJoinSatisfied
  | approvalEscalated
  | mergePassed
  | returnedToRework
  | reworkResumed
  | forEachFannedOut
  | contextUpdated
  deriving DecidableEq, Repr

namespace EventType

/-- The text stored in the log. -/
def asStr : EventType → String
  | .started => "workflow.started.v1"
  | .activityScheduled => "activity.scheduled.v1"
  | .signalReceived => "workflow.signal_received.v1"
  | .activityCompleted => "activity.completed.v1"
  | .activityFailed => "activity.failed.v1"
  | .completed => "workflow.completed.v1"
  | .errored => "workflow.errored.v1"
  | .reactivated => "workflow.reactivated.v1"
  | .timerFired => "workflow.timer_fired.v1"
  | .activitySkipped => "activity.skipped.v1"
  | .parallelSplitScheduled => "workflow.parallel_split_scheduled.v1"
  | .branchReachedJoin => "workflow.branch_reached_join.v1"
  | .parallelJoinSatisfied => "workflow.parallel_join_satisfied.v1"
  | .approvalEscalated => "workflow.approval_escalated.v1"
  | .mergePassed => "workflow.merge_passed.v1"
  | .returnedToRework => "workflow.returned_to_rework.v1"
  | .reworkResumed => "workflow.rework_resumed.v1"
  | .forEachFannedOut => "workflow.for_each_fanned_out.v1"
  | .contextUpdated => "workflow.context_updated.v1"

def all : List EventType :=
  [.started, .activityScheduled, .signalReceived, .activityCompleted, .activityFailed, .completed, .errored,
   .reactivated, .timerFired, .activitySkipped, .parallelSplitScheduled, .branchReachedJoin, .parallelJoinSatisfied,
   .approvalEscalated, .mergePassed, .returnedToRework, .reworkResumed, .forEachFannedOut, .contextUpdated]

/-- No two event types share a text, so reading the text back is reading the event type. -/
theorem asStr_injective : (all.map asStr).Nodup := by decide +kernel

end EventType

structure EventRecord where
  seq : Int
  eventType : EventType
  payload : Json
  createdAt : Time
  deriving Repr

structure NotificationPayload where
  tenantId : Int
  facilityId : Option Uuid
  templateCode : String
  recipientSelector : RecipientSelector
  notificationTypes : List String
  templateArgs : List (String × String)
  referenceType : String
  purpose : String
  visibility : String
  businessType : String
  businessKey : String
  deriving DecidableEq, Repr

structure BusinessCallbackPayload where
  tenantId : Int
  facilityId : Uuid
  workflowInstanceId : Uuid
  activityInstanceId : Uuid
  handlerType : String
  idempotencyKey : String
  businessType : String
  businessKey : String
  payload : Json
  deriving Repr

inductive IdempotencyKeyStrategy where
  | payloadField (field : String)
  | businessKey
  | outboxRecordId
  deriving DecidableEq, Repr

/-- Which facilities of the tenant a caller sees. -/
inductive FacilityVisibility where
  | allInTenant
  | only (ids : List Uuid)
  deriving DecidableEq, Repr

structure ScopeFilter where
  tenantId : Int
  facilities : FacilityVisibility
  deriving DecidableEq, Repr

/-- One scheduled branch of a fan-out. -/
structure ParallelTarget where
  nodeId : String
  activityType : ActivityType
  assigneeRole : Option String
  itemIndex : Option Int
  itemPayload : Option Json
  deriving Repr

/-- What the runtime decides for a resolved activity. -/
inductive AdvanceOutcome where
  | advance (targetNode : String) (assigneeRole : Option String)
  | advanceMulti (targets : List ParallelTarget)
  | complete (result : WorkflowResult)
  | rework (targetNode : String) (assigneeRole : Option String)
  | error
  deriving Repr

end Fusions.Hetuflow
