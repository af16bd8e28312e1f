import Fusions.Library.Assembly
import Fusions.Hetuflow.Service.Service

/-! What the service's programs are built from: appends of events, and statements that complete no activity. An
outcome is applied for its source only. -/
namespace Fusions.Hetuflow
open Fusions.Library Program

/-- A statement that neither appends an event nor completes an activity. -/
def Stmt.isPlain {β : Type} : Stmt β → Bool
  | .appendEvent .. | .completeActivityCas .. => false
  | _ => true

/-- A plain statement, or the append of an event of a given kind with the next number. -/
inductive Block (kinds : EventType → Prop) : ∀ γ : Type, Prog γ → Prop where
  | stmt {β : Type} {q : Stmt β} : q.isPlain = true → Block kinds β (stmt q)
  | append {t : EventType} (payload : Json) (key : Option String) : kinds t → Block kinds Unit (append t payload key)

/-- A statement on the rows of the instance alone, new ids apart. -/
def Stmt.isOwn {β : Type} : Stmt β → Bool
  | .loadActivity _ | .resumeFromReturnedWaiting | .reactivateWorkflow => false
  | _ => true

def FlowError.isStorage : FlowError → Bool
  | .storage _ => true
  | _ => false

/-- Blocks that hold the plain statements on the rows of the instance alone, and the appends of events; a fan-out of
a for-each is appended with its count. -/
structure HoldsOwn (block : ∀ γ : Type, Prog γ → Prop) : Prop where
  stmt {β : Type} {q : Stmt β} : q.isOwn = true → q.isPlain = true → block β (stmt q)
  event {t : EventType} {payload : Json} {key : Option String} : t ≠ .forEachFannedOut →
    block Unit (append t payload key)
  fanOut {fan : ForEachFanOut} {count : Nat} {round : Int} :
    block Unit (append .forEachFannedOut (forEachFannedOutPayload fan count round) none)

theorem Block.holdsOwn {kinds : EventType → Prop} (hall : ∀ t, kinds t) : HoldsOwn (Block kinds) where
  stmt _ hplain := .stmt hplain
  event _ := .append _ _ (hall _)
  fanOut := .append _ _ (hall _)

section
variable {kinds : EventType → Prop} {marks : Uuid → Prop} {ctx : InstanceCtx} {activity : ActivityInstance}

/-- The blocks themselves carry no marks. -/
theorem marks_of_built {α : Type} {p : Prog α} (h : p.BuiltFrom (Block kinds) marks) : p.Marks marks := by
  refine h.marked fun q hq => ?_
  cases hq with
  | stmt => exact .stmt _
  | append => exact .bind (.stmt _) fun _ => .stmt _

theorem built_stmt {β : Type} {q : Stmt β} (hq : q.isPlain = true) : (stmt q : Prog β).BuiltFrom (Block kinds) marks :=
  .block (.stmt hq)

theorem built_append {t : EventType} {payload : Json} {key : Option String} (ht : kinds t) :
    (append t payload key).BuiltFrom (Block kinds) marks :=
  .block (.append payload key ht)

theorem built_reload : (reload ctx).BuiltFrom (Block kinds) marks := by
  refine .bind (built_stmt rfl) fun i => ?_
  cases i with
  | none => exact .fail _
  | some i => exact .done _

theorem built_applyContextWrites {node : WorkflowNode} {round : Int} {patch : Option Json}
    (hupdated : kinds .contextUpdated) : (applyContextWrites ctx node round patch).BuiltFrom (Block kinds) marks := by
  unfold applyContextWrites
  refine .ite (.pure _) ?_
  split
  · exact .bind (.ofExcept _) fun _ => .bind (built_stmt rfl) fun _ => .bind (built_append hupdated) fun _ => .pure _
  · exact .fail _

theorem built_signalAssignee {cmd : SignalCommand} (hreceived : kinds .signalReceived) :
    (signalAssignee cmd ctx activity).BuiltFrom (Block kinds) marks :=
  .bind (built_stmt rfl) fun _ => .bind (built_append hreceived) fun _ => .bind built_reload fun _ =>
    .bind (built_stmt rfl) fun _ => .pure _

theorem built_resumeIfWaiting {status : WorkflowStatus} (hresumed : kinds .reworkResumed) :
    (resumeIfWaiting status activity).BuiltFrom (Block kinds) marks :=
  .ite (.bind (built_stmt rfl) fun _ => .ite (built_append hresumed) (.pure _)) (.pure _)

theorem built_resolveTargetActivity {cmd : SignalCommand} :
    (resolveTargetActivity cmd).BuiltFrom (Block kinds) marks := by
  unfold resolveTargetActivity
  split
  · refine .bind (built_stmt rfl) fun found => ?_
    cases found with
    | none => exact .fail _
    | some activity => exact .ite (.fail _) (.ite (.fail _) (.pure _))
  · refine .bind (built_stmt rfl) fun active => ?_
    rcases active with _ | ⟨activity, _ | _⟩
    · exact .fail _
    · exact .pure _
    · exact .fail _

theorem built_onOutboxDeadLetter {id : Uuid} {activityType lastError : String} (hfailed : kinds .activityFailed) :
    (WorkflowService.onOutboxDeadLetter id activityType lastError).BuiltFrom (Block kinds) marks := by
  refine .bind (built_stmt rfl) fun i => ?_
  cases i with
  | none => exact .pure _
  | some i => exact built_append hfailed

theorem built_verifyProjection {scope : ScopeFilter} {instanceId : Uuid} :
    (WorkflowService.verifyProjection scope instanceId).BuiltFrom (Block kinds) marks := by
  refine .bind (built_stmt rfl) fun i => ?_
  cases i with
  | none => exact .fail _
  | some i =>
    exact .bind (built_stmt rfl) fun _ => .bind (built_stmt rfl) fun _ => .bind (built_stmt rfl) fun _ => .pure _

end

namespace WorkflowService
variable {kinds : EventType → Prop} {marks : Uuid → Prop} {svc : WorkflowService} {ctx : InstanceCtx}
  {node : WorkflowNode} {round : Int}

theorem built_appendMerges {source : ActivityInstance} {trace : ResolveTrace} (hpassed : kinds .mergePassed) :
    (appendMerges source round trace).BuiltFrom (Block kinds) marks :=
  .forM _ fun _ => built_append hpassed

theorem built_skipRemaining {exclude : Option Uuid} (hskipped : kinds .activitySkipped) :
    (skipRemaining node exclude).BuiltFrom (Block kinds) marks :=
  .bind (.bind (built_stmt rfl) fun _ => built_stmt rfl) fun _ => .whenever _ (built_append hskipped)

section
variable {block : ∀ γ : Type, Prog γ → Prop} {fails : FlowError → Prop} (hown : HoldsOwn block)
  (hfails : ∀ e : FlowError, e.isStorage = false → fails e)
include hown

private theorem assembled_stmt {β : Type} {q : Stmt β} (hq : q.isOwn = true) (hplain : q.isPlain = true) :
    (stmt q : Prog β).AssembledFrom block marks fails :=
  .block (hown.stmt hq hplain)

private theorem assembled_append {t : EventType} {payload : Json} {key : Option String} (ht : t ≠ .forEachFannedOut) :
    (append t payload key).AssembledFrom block marks fails :=
  .block (hown.event ht)

theorem assembled_failInstance {reason : String} : (failInstance reason).AssembledFrom block marks fails :=
  .bind (assembled_stmt hown rfl rfl) fun _ => assembled_append hown nofun

private theorem assembled_skipRemaining {exclude : Option Uuid} :
    (skipRemaining node exclude).AssembledFrom block marks fails :=
  .bind (.bind (assembled_stmt hown rfl rfl) fun _ => assembled_stmt hown rfl rfl) fun _ =>
    .whenever _ (assembled_append hown nofun)

include hfails

omit hown in
private theorem assembled_node {id : String} :
    (ofExcept (ctx.node id) : Prog WorkflowNode).AssembledFrom block marks fails := by
  refine .ofExcept fun e he => hfails e ?_
  unfold InstanceCtx.node at he
  split at he
  · cases he
  · obtain rfl := Except.error.inj he
    rfl

theorem assembled_scheduleActivity {role : Option String} {fanout : Option FanoutMark} :
    (svc.scheduleActivity ctx node role round fanout).AssembledFrom block marks fails := by
  have htimers : ∀ activity, (scheduleTimers node activity).AssembledFrom block marks fails := fun activity =>
    .bind (.whenever _ (assembled_stmt hown rfl rfl)) fun _ => .bind (.whenever _ (assembled_stmt hown rfl rfl)) fun _ =>
      .whenever _ (assembled_stmt hown rfl rfl)
  have hdelivery : ∀ activity, (svc.enqueueDelivery ctx node activity).AssembledFrom block marks fails := by
    intro activity
    unfold enqueueDelivery
    split
    · exact assembled_stmt hown rfl rfl
    · exact .pure _
  exact .ite (.fail (hfails _ rfl)) (.bind (assembled_stmt hown rfl rfl) fun activity =>
    .bind (assembled_append hown nofun) fun _ => .bind (htimers activity) fun _ => .bind (hdelivery activity) fun _ =>
      .pure _)

private theorem assembled_scheduleBranches {via : String} {targets : List ParallelTarget} :
    (svc.scheduleBranches ctx round via targets).AssembledFrom block marks fails :=
  .forM _ fun _ => .bind (assembled_node hfails) fun _ => .bind (assembled_scheduleActivity hown hfails) fun _ =>
    .pure _

private theorem assembled_terminalCallback : terminalCallback.AssembledFrom block marks fails := by
  refine .bind (assembled_stmt hown rfl rfl) fun events => ?_
  split
  · exact .pure _
  · split
    · exact .pure _
    · exact .pure _
    · split
      · exact .pure _
      · exact .fail (hfails _ rfl)

private theorem assembled_enqueueTerminalCallback {tc : TerminalCallback} :
    (svc.enqueueTerminalCallback ctx tc).AssembledFrom block marks fails := by
  refine .bind (assembled_stmt hown rfl rfl) fun active => .bind (assembled_stmt hown rfl rfl) fun all => ?_
  split
  · exact .fail (hfails _ rfl)
  · split
    · exact .fail (hfails _ rfl)
    · exact assembled_stmt hown rfl rfl

private theorem assembled_completeInstance {result : WorkflowResult} :
    (svc.completeInstance ctx result).AssembledFrom block marks fails := by
  have hcallback : (svc.runTerminalCallback ctx).AssembledFrom block marks fails := by
    refine .bind (assembled_terminalCallback hown hfails) fun tc => ?_
    cases tc with
    | none => exact .pure _
    | some tc => exact assembled_enqueueTerminalCallback hown hfails
  exact .bind (assembled_stmt hown rfl rfl) fun _ =>
    .ite (.bind (assembled_append hown nofun) fun _ => .whenever _ hcallback) (.fail (hfails _ rfl))

private theorem assembled_applyRework {source : ActivityInstance} {target : String} {role : Option String} :
    (svc.applyRework ctx source target role).AssembledFrom block marks fails := by
  refine .bind (assembled_stmt hown rfl rfl) fun round => ?_
  dsimp only
  split
  · next e he =>
    have hconflict : e.isStorage = false := by
      unfold checkRound at he
      dsimp only at he
      split at he
      · obtain rfl := Except.error.inj he
        rfl
      · cases he
    exact .bind (assembled_failInstance hown) fun _ => .fail (hfails e hconflict)
  · exact .bind (assembled_node hfails) fun _ => .bind (assembled_scheduleActivity hown hfails) fun _ =>
      .bind (assembled_stmt hown rfl rfl) fun _ => .ite (assembled_append hown nofun) (.fail (hfails _ rfl))

section
variable {next : AdvanceOutcome → ResolveTrace → Prog Unit}
  (hnext : ∀ outcome trace, (next outcome trace).AssembledFrom block marks fails)
include hnext

private theorem assembled_trySatisfyJoin {exclude : Option Uuid} :
    (svc.trySatisfyJoin next ctx round node exclude).AssembledFrom block marks fails := by
  have hexpectation : (joinExpectation ctx round node).AssembledFrom block marks fails := by
    refine .bind (assembled_stmt hown rfl rfl) fun dynamic => .ofExcept fun e he => hfails e ?_
    unfold branchExpectation at he
    split at he
    · split at he
      · cases he
      · obtain rfl := Except.error.inj he
        rfl
    · cases he
  exact .bind hexpectation fun _ => .bind (assembled_stmt hown rfl rfl) fun _ =>
    .ite (.bind (assembled_append hown nofun) fun _ => .bind (.whenever _ (assembled_skipRemaining hown)) fun _ =>
      hnext _ _) (assembled_stmt hown rfl rfl)

private theorem assembled_fanOut {source : ActivityInstance} {targets : List ParallelTarget} {trace : ResolveTrace} :
    (svc.fanOut next ctx source round targets trace).AssembledFrom block marks fails := by
  refine .bind (assembled_stmt hown rfl rfl) fun _ => ?_
  split
  · refine .bind (.block hown.fanOut) fun _ => .bind (assembled_scheduleBranches hown hfails) fun _ => .ite ?_ (.pure _)
    exact .bind (assembled_node hfails) fun _ => assembled_trySatisfyJoin hown hfails hnext
  · exact .bind (assembled_append hown nofun) fun _ => assembled_scheduleBranches hown hfails

private theorem assembled_applyArm {source : ActivityInstance} {outcome : AdvanceOutcome} {trace : ResolveTrace} :
    (svc.applyArm next ctx source round outcome trace).AssembledFrom block marks fails := by
  unfold applyArm
  split
  · refine .bind (assembled_node hfails) fun node => .ite ?_ ?_
    · exact .bind (assembled_append hown nofun) fun _ => assembled_trySatisfyJoin hown hfails hnext
    · exact .bind (assembled_scheduleActivity hown hfails) fun _ => .bind (assembled_stmt hown rfl rfl) fun _ => .pure _
  · exact assembled_fanOut hown hfails hnext
  · exact assembled_completeInstance hown hfails
  · exact assembled_applyRework hown hfails
  · exact assembled_failInstance hown

end

/-- An outcome is applied for its source, and so are the outcomes of the joins that it makes fire. It asks about the
rows of its instance only, and no error of its own is one of the storage. -/
theorem assembled_applyOutcome {source : ActivityInstance} (hsource : marks source.id) {fuel : Nat}
    {outcome : AdvanceOutcome} {trace : ResolveTrace} :
    (svc.applyOutcome ctx source round fuel outcome trace).AssembledFrom block marks fails := by
  induction fuel generalizing outcome trace with
  | zero => exact .diverge
  | succ fuel ih =>
    exact .mark hsource (.bind (.forM _ fun _ => assembled_append hown nofun) fun _ =>
      assembled_applyArm hown hfails fun _ _ => ih)

end

variable (hall : ∀ t, kinds t)
include hall

theorem built_scheduleActivity {role : Option String} {fanout : Option FanoutMark} :
    (svc.scheduleActivity ctx node role round fanout).BuiltFrom (Block kinds) marks := by
  have hassembled : (svc.scheduleActivity ctx node role round fanout).AssembledFrom (Block kinds) marks fun _ => True :=
    assembled_scheduleActivity (Block.holdsOwn hall) fun _ _ => trivial
  exact hassembled.builtFrom fun _ h => h

/-- An outcome is applied for its source, and so are the outcomes of the joins that it makes fire. -/
theorem built_applyOutcome {source : ActivityInstance} {fuel : Nat} {outcome : AdvanceOutcome} {trace : ResolveTrace} :
    (svc.applyOutcome ctx source round fuel outcome trace).BuiltFrom (Block kinds) (· = source.id) := by
  have hassembled : (svc.applyOutcome ctx source round fuel outcome trace).AssembledFrom (Block kinds)
      (· = source.id) fun _ => True := by
    apply assembled_applyOutcome (Block.holdsOwn hall) fun _ _ => trivial
    rfl
  exact hassembled.builtFrom fun _ h => h

theorem built_startInserted {cmd : StartCommand} {inst : WorkflowInstance} {entryId : String}
    {entryRole : Option String} :
    (svc.startInserted cmd inst entryId entryRole).BuiltFrom (Block kinds) marks :=
  .bind (built_append (hall _)) fun _ => .bind (.ofExcept _) fun _ => .bind (built_scheduleActivity hall) fun _ =>
    .bind (built_stmt rfl) fun _ => .bind built_reload fun _ => .bind (built_stmt rfl) fun _ => .pure _

theorem built_resubmit {scope : ScopeFilter} {instanceId : Uuid} {key : String} :
    (svc.resubmit scope instanceId key).BuiltFrom (Block kinds) marks := by
  have hreenter : ∀ inst, (svc.reenter inst key).BuiltFrom (Block kinds) marks := by
    refine fun inst => .bind (built_stmt rfl) fun snapshot => .bind (built_stmt rfl) fun _ =>
      .bind (.ofExcept _) fun _ => .bind (built_stmt rfl) fun _ =>
        .ite (.bind (built_append (hall _)) fun _ => ?_) (.fail _)
    cases decideStart snapshot.nodes with
    | none => exact .fail _
    | some entry =>
      exact .bind (.ofExcept _) fun _ => .bind (built_scheduleActivity hall) fun _ => .bind (built_stmt rfl) fun _ =>
        .bind built_reload fun _ => .bind (built_stmt rfl) fun _ => .pure _
  refine .ite (.fail _) (.bind (built_stmt rfl) fun found => ?_)
  cases found with
  | none => exact .fail _
  | some inst =>
    exact .bind (built_stmt rfl) fun _ =>
      .ite (.bind (built_stmt rfl) fun _ => .pure _) (.ite (hreenter inst) (.fail _))

omit hall in
theorem built_fireReminder {activity : ActivityInstance} {node : WorkflowNode} :
    (svc.fireReminder ctx activity node).BuiltFrom (Block kinds) marks :=
  .bind (built_stmt rfl) fun _ => .pure _

theorem built_fireEscalation {activity : ActivityInstance} {node : WorkflowNode} :
    (svc.fireEscalation ctx activity node).BuiltFrom (Block kinds) marks := by
  unfold fireEscalation
  split
  · exact .pure _
  · exact .bind (built_stmt rfl) fun _ => .ite (.bind (built_append (hall _)) fun _ => .bind (built_stmt rfl) fun _ =>
      .pure _) (.pure _)

end WorkflowService
end Fusions.Hetuflow
