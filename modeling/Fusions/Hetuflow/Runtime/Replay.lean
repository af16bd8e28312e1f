import Mathlib.Algebra.Group.Int.Defs
import Mathlib.Algebra.Group.Nat.Defs
import Fusions.Hetuflow.Core.Model

/-! Projection rebuild: the event reducer `fold_events` and the drift report `diff_projection`. -/
namespace Fusions.Hetuflow

/-- `reviewed_by` of a notification completed by its delivery. -/
def nilActor : String := "0"

structure ReplayedInstance where
  status : WorkflowStatus
  currentActivityId : Option String
  result : Option WorkflowResult
  startedAt : Option Time
  completedAt : Option Time
  deriving DecidableEq, Repr

structure ReplayedActivity where
  id : String
  activityDefinitionId : String
  activityType : ActivityType
  status : ActivityStatus
  assigneeRole : Option String
  assigneeId : Option String
  result : Option String
  reviewNotes : Option String
  reviewedBy : Option String
  reviewedAt : Option Time
  round : Int
  deriving DecidableEq, Repr

structure ReplayedProjection where
  instanceRow : ReplayedInstance
  activities : List ReplayedActivity
  deriving DecidableEq, Repr

/-- Activity type of a node instantiated as an activity row. -/
def instantiatedActivityType : NodeKind → ActivityType
  | .eventWait => .eventWait
  | .notification => .notification
  | .assignment => .assignment
  | _ => .approval

/-- A payload field as a string; absent and non-string values are alike. -/
def pstr (payload : Json) (key : String) : Option String :=
  (payload.get key).bind Json.asStr

/-- `as i32`: the value modulo `2 ^ 32`, in the signed range. -/
def asI32 (n : Int) : Int := n.bmod (2 ^ 32)

def pi32 (payload : Json) (key : String) : Option Int :=
  ((payload.get key).bind Json.asI64).map asI32

theorem asI32_of_small {n : Int} (h₀ : 0 ≤ n) (h : n < 2 ^ 31) : asI32 n = n := by
  unfold asI32
  rw [Int.bmod_def, Int.emod_eq_of_lt h₀ (by omega), if_pos (by omega)]

def activityTypeFor (snapshot : DefinitionSnapshot) (defId : String) : ActivityType :=
  match snapshot.nodes.find? fun n => n.id == defId with
  | some n => instantiatedActivityType n.kind
  | none => .approval

/-- Change the first element that matches. -/
def modifyFirst {α : Type} (p : α → Bool) (f : α → α) : List α → List α
  | [] => []
  | x :: xs => if p x then f x :: xs else x :: modifyFirst p f xs

/-- With at most one match, changing the first is changing every match. -/
theorem modifyFirst_eq_map {α : Type} {p : α → Bool} (f : α → α) {l : List α}
    (h : l.Pairwise fun a b => p a = true → p b = false) :
    modifyFirst p f l = l.map fun a => if p a then f a else a := by
  induction l with
  | nil => rfl
  | cons x xs ih =>
    obtain ⟨hx, hxs⟩ := List.pairwise_cons.1 h
    by_cases hp : p x = true
    · have hrest : xs.map (fun a => if p a then f a else a) = xs := by
        conv => rhs; rw [← List.map_id xs]
        exact List.map_congr_left fun a ha => by simp [hx a ha hp]
      simp [modifyFirst, hp, hrest]
    · simp [modifyFirst, hp, ih hxs]

theorem modifyFirst_modifyFirst {α : Type} {p : α → Bool} (f g : α → α) (hf : ∀ a, p (f a) = p a)
    (l : List α) : modifyFirst p g (modifyFirst p f l) = modifyFirst p (fun a => g (f a)) l := by
  induction l with
  | nil => rfl
  | cons x xs ih =>
    by_cases hp : p x = true
    · simp [modifyFirst, hp, hf]
    · simp [modifyFirst, hp, ih]

namespace ReplayedActivity

/-- The row an `activity.scheduled.v1` or `workflow.returned_to_rework.v1` payload stands for. -/
def scheduled (snapshot : DefinitionSnapshot) (p : Json) (id defId : String) : ReplayedActivity where
  id := id
  activityDefinitionId := defId
  activityType := activityTypeFor snapshot defId
  status := .active
  assigneeRole := pstr p "assignee_role"
  assigneeId := none
  result := none
  reviewNotes := none
  reviewedBy := none
  reviewedAt := none
  round := (pi32 p "round").getD 1

/-- A claim moves the assignee, any other signal leaves its reviewer. -/
def signalled (a : ReplayedActivity) (p : Json) (signal : String) (at_ : Time) : ReplayedActivity :=
  if signal == "claimed" || signal == "reassigned" then { a with assigneeId := pstr p "assignee_id" }
  else { a with
    reviewedBy := pstr p "reviewer_id"
    reviewNotes := pstr p "review_notes"
    reviewedAt := some at_ }

def completedBy (a : ReplayedActivity) (p : Json) (at_ : Time) : ReplayedActivity :=
  let a := { a with status := .completed, result := pstr p "result" }
  if pstr p "source" == some "notification_outbox" then
    { a with reviewedBy := some nilActor, reviewedAt := some at_ }
  else a

def skip (a : ReplayedActivity) : ReplayedActivity := { a with status := .skipped }

end ReplayedActivity

/-- The activity of a rework, or a stand-in id when the payload names none. -/
def reworkId (p : Json) : String :=
  let target := (pstr p "rework_target").getD ""
  let round := (pi32 p "round").getD 1
  (pstr p "activity_id").getD s!"<rework:{target}:{round}>"

namespace ReplayedProjection

def initial : ReplayedProjection := ⟨⟨.pending, none, none, none, none⟩, []⟩

/-- Update the first activity with this id, if there is one. -/
def updateActivity (r : ReplayedProjection) (id : String) (f : ReplayedActivity → ReplayedActivity) :
    ReplayedProjection :=
  { r with activities := modifyFirst (fun a => a.id == id) f r.activities }

def scheduleActivity (r : ReplayedProjection) (snapshot : DefinitionSnapshot) (p : Json) :
    ReplayedProjection :=
  match pstr p "activity_id" with
  | none => r
  | some id =>
    let via := pstr p "via"
    { instanceRow := { r.instanceRow with
        currentActivityId := if via == some "for_each" || via == some "parallel_split" then none else some id
        status := if r.instanceRow.status.isTerminal then r.instanceRow.status else .active }
      activities := r.activities ++
        [.scheduled snapshot p id ((pstr p "activity_definition_id").getD "")] }

def receiveSignal (r : ReplayedProjection) (p : Json) (at_ : Time) : ReplayedProjection :=
  match pstr p "target_activity_id" with
  | none => r
  | some id => r.updateActivity id fun a => a.signalled p ((pstr p "signal_type").getD "") at_

def skipActivities (r : ReplayedProjection) (p : Json) : ReplayedProjection :=
  match pstr p "activity_id" with
  | some id => r.updateActivity id .skip
  | none => { r with activities := r.activities.map fun a => if a.status == .active then a.skip else a }

def returnToRework (r : ReplayedProjection) (snapshot : DefinitionSnapshot) (p : Json) :
    ReplayedProjection :=
  let defId := (pstr p "rework_target").getD ""
  let id := reworkId p
  { instanceRow := { r.instanceRow with status := .returnedWaiting, currentActivityId := some id }
    activities := r.activities ++ [.scheduled snapshot p id defId] }

def escalate (r : ReplayedProjection) (p : Json) : ReplayedProjection :=
  match pstr p "activity_id", pstr p "to_role" with
  | some id, some role => r.updateActivity id fun a => { a with assigneeRole := some role }
  | _, _ => r

end ReplayedProjection

/-- Two changes of one activity that keep its id. -/
theorem ReplayedProjection.updateActivity_updateActivity (r : ReplayedProjection) (id : String)
    {f : ReplayedActivity → ReplayedActivity} (g : ReplayedActivity → ReplayedActivity)
    (hf : ∀ a, (f a).id = a.id) :
    (r.updateActivity id f).updateActivity id g = r.updateActivity id fun a => g (f a) := by
  simp only [updateActivity]
  rw [modifyFirst_modifyFirst f g fun a => by rw [hf a]]

theorem ReplayedActivity.signalled_id (a : ReplayedActivity) (p : Json) (signal : String) (at_ : Time) :
    (a.signalled p signal at_).id = a.id := by
  unfold signalled
  split <;> rfl

/-- One event of the reducer's loop. -/
def foldEvent (snapshot : DefinitionSnapshot) (r : ReplayedProjection) (ev : EventRecord) :
    ReplayedProjection :=
  match ev.eventType with
  | .started =>
    { r with instanceRow := { r.instanceRow with status := .active, startedAt := some ev.createdAt } }
  | .activityScheduled => r.scheduleActivity snapshot ev.payload
  | .signalReceived => r.receiveSignal ev.payload ev.createdAt
  | .activityCompleted =>
    r.updateActivity ((pstr ev.payload "activity_id").getD "") fun a =>
      a.completedBy ev.payload ev.createdAt
  | .activitySkipped => r.skipActivities ev.payload
  | .completed =>
    { r with instanceRow := { r.instanceRow with
        status := .completed
        result := (pstr ev.payload "result").bind WorkflowResult.fromDb
        completedAt := some ev.createdAt
        currentActivityId := none } }
  | .errored => { r with instanceRow := { r.instanceRow with status := .errored } }
  | .returnedToRework => r.returnToRework snapshot ev.payload
  | .reworkResumed => { r with instanceRow := { r.instanceRow with status := .active } }
  | .reactivated =>
    { r with instanceRow := { r.instanceRow with status := .active, result := none, completedAt := none } }
  | .approvalEscalated => r.escalate ev.payload
  | .parallelSplitScheduled | .forEachFannedOut =>
    { r with instanceRow := { r.instanceRow with currentActivityId := none } }
  -- facts whose projection change is carried by a neighbouring event
  | .mergePassed | .branchReachedJoin | .parallelJoinSatisfied | .activityFailed | .timerFired
  | .contextUpdated => r

/-- Events whose projection change, if any, is carried by a neighbouring event. -/
def EventType.isNeutral : EventType → Bool
  | .mergePassed | .branchReachedJoin | .parallelJoinSatisfied | .activityFailed | .timerFired
  | .contextUpdated => true
  | _ => false

theorem foldEvent_neutral (snapshot : DefinitionSnapshot) (r : ReplayedProjection) {ev : EventRecord}
    (h : ev.eventType.isNeutral = true) : foldEvent snapshot r ev = r := by
  unfold foldEvent
  cases ht : ev.eventType <;> simp [ht, EventType.isNeutral] at h ⊢

/-- Rebuild the projection from the bound snapshot and the events in `seq` order. -/
def foldEvents (snapshot : DefinitionSnapshot) (events : List EventRecord) : ReplayedProjection :=
  events.foldl (foldEvent snapshot) .initial

theorem foldEvents_append (snapshot : DefinitionSnapshot) (log new : List EventRecord) :
    foldEvents snapshot (log ++ new) = new.foldl (foldEvent snapshot) (foldEvents snapshot log) := by
  rw [foldEvents, List.foldl_append, foldEvents]

@[simp] theorem foldEvents_concat (snapshot : DefinitionSnapshot) (log : List EventRecord)
    (ev : EventRecord) :
    foldEvents snapshot (log ++ [ev]) = foldEvent snapshot (foldEvents snapshot log) ev := by
  rw [foldEvents_append, List.foldl_cons, List.foldl_nil]

/-- `{:?}` of an option. -/
def debugOption {α : Type} (debug : α → String) : Option α → String
  | some a => "Some(" ++ debug a ++ ")"
  | none => "None"

/-- `{:?}` of a string without characters that need an escape. -/
def debugString (s : String) : String :=
  let quote := (Char.ofNat 34).toString
  quote ++ s ++ quote

/-- A difference line, when the two values of a field differ. -/
def diffField {α : Type} [DecidableEq α] (label : String) (debug : α → String) (replayed live : α) :
    List String :=
  if replayed = live then [] else [s!"{label}: replay={debug replayed} live={debug live}"]

@[simp] theorem diffField_eq_nil {α : Type} [DecidableEq α] (label : String) (debug : α → String)
    (a b : α) : diffField label debug a b = [] ↔ a = b := by
  simp [diffField]

/-- The fields of one activity that the report compares. -/
def diffActivity (ra : ReplayedActivity) (la : ActivityInstance) : List String :=
  let field := fun name => s!"activity[{ra.id}].{name}"
  diffField (field "status") ActivityStatus.debug ra.status la.status ++
  diffField (field "result") (debugOption debugString) ra.result la.result ++
  diffField (field "round") toString ra.round la.round ++
  diffField (field "assignee_role") (debugOption debugString) ra.assigneeRole la.assigneeRole ++
  diffField (field "assignee_id") (debugOption debugString) ra.assigneeId la.assigneeId ++
  diffField (field "review_notes") (debugOption debugString) ra.reviewNotes la.reviewNotes ++
  diffField (field "reviewed_by") (debugOption debugString) ra.reviewedBy la.reviewedBy

/-- The live row a replayed activity is compared with: of several rows with one id, the map built
from them keeps the last. -/
def liveById (live : List ActivityInstance) (id : String) : Option ActivityInstance :=
  live.reverse.find? fun a => a.id == id

/-- The differences of one replayed activity. -/
def diffReplayed (live : List ActivityInstance) (ra : ReplayedActivity) : List String :=
  match liveById live ra.id with
  | none => [s!"activity[{ra.id}]: replay 有但 live 缺"]
  | some la => diffActivity ra la

/-- The drift report: empty when the replayed projection agrees with the live rows. -/
def diffProjection (replayed : ReplayedProjection) (liveInstance : WorkflowInstance)
    (liveActivities : List ActivityInstance) : List String :=
  diffField "instance.status" WorkflowStatus.debug replayed.instanceRow.status liveInstance.status ++
  diffField "instance.current_activity_id" (debugOption debugString)
    replayed.instanceRow.currentActivityId liveInstance.currentActivityId ++
  diffField "instance.result" (debugOption WorkflowResult.debug)
    replayed.instanceRow.result liveInstance.result ++
  replayed.activities.flatMap (diffReplayed liveActivities) ++
  (liveActivities.filter fun la => !replayed.activities.any fun ra => ra.id == la.id).map
    fun la => s!"activity[{la.id}]: live 有但 replay 缺"

end Fusions.Hetuflow
