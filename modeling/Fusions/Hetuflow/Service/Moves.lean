import Mathlib.Logic.Relation
import Fusions.Hetuflow.Service.Log

/-! The writes a call is made of: every effect on the rows of an instance is a sequence of them. -/
namespace Fusions.Hetuflow
open Fusions.Library Relation

/-- One write to the rows of an instance, or one scheduled activity. -/
inductive Move (env : Env) : InstanceRows → InstanceRows → Prop where
  | inst {r : InstanceRows} (f : WorkflowInstance → WorkflowInstance) : Move env r (r.updateInstance f)
  | event {r : InstanceRows} (e : EventRow) : Move env r (r.appendEvent e)
  | activities {r : InstanceRows} (p : ActivityRow → Bool) (f : ActivityRow → ActivityRow) :
      (∀ a, (f a).booking = a.booking) → Move env r (r.updateActivities p f)
  | timers {r : InstanceRows} (p : TimerRow → Bool) (status : TimerStatus) : Move env r (r.updateTimers p status)
  | outbox {r : InstanceRows} (os : List OutboxRow) : Move env r { r with outbox := r.outbox ++ os }
  | schedule {tenantId : Int} {node : WorkflowNode} {role : Option String} {round : Int}
      {fanout : Option FanoutMark} {row : ActivityRow} {r r' : InstanceRows} :
      Scheduled env tenantId node role round fanout r row r' →
      findNode r.snapshot.nodes node.id = some node → Move env r r'

/-- A sequence of writes. -/
def Moves (env : Env) : InstanceRows → InstanceRows → Prop := ReflTransGen (Move env)

namespace Moves
variable {env : Env} {r₁ r₂ r₃ : InstanceRows}

theorem refl (r : InstanceRows) : Moves env r r := ReflTransGen.refl

theorem single (h : Move env r₁ r₂) : Moves env r₁ r₂ := ReflTransGen.single h

theorem tail (h : Moves env r₁ r₂) (k : Move env r₂ r₃) : Moves env r₁ r₃ := ReflTransGen.tail h k

theorem trans (h : Moves env r₁ r₂) (k : Moves env r₂ r₃) : Moves env r₁ r₃ := ReflTransGen.trans h k

/-- What every write keeps, a sequence of writes keeps. -/
theorem invariant {P : InstanceRows → Prop} (hmove : ∀ {r r'}, P r → Move env r r' → P r')
    {r r' : InstanceRows} (h : Moves env r r') (hr : P r) : P r' := by
  induction h with
  | refl => exact hr
  | tail _ hlast ih => exact hmove ih hlast

theorem snapshot {r r' : InstanceRows} (h : Moves env r r') : r'.snapshot = r.snapshot := by
  refine h.invariant (P := fun r' => r'.snapshot = r.snapshot) (fun hr hmove => ?_) rfl
  cases hmove with
  | schedule hsched _ => exact hsched.snapshot.trans hr
  | _ => exact hr

variable (r : InstanceRows) (now : Time)

theorem updateInstance (f : WorkflowInstance → WorkflowInstance) : Moves env r (r.updateInstance f) :=
  .single (.inst f)

theorem log (t : EventType) (p : Json) (k : Option String) : Moves env r (r.log now t p k) := .single (.event _)

theorem passMerges (f : String) (n : Int) (ms : List String) : Moves env r (r.passMerges now f n ms) :=
  InstanceRows.passMerges_induction ms (.refl r) fun r' p hr => hr.trans (log r' now .mergePassed p none)

theorem pointTo (id : Uuid) : Moves env r (r.pointTo id) := by
  unfold InstanceRows.pointTo
  split
  · exact updateInstance ..
  · exact .refl _

theorem errorOut : Moves env r r.errorOut := by
  unfold InstanceRows.errorOut
  split
  · exact updateInstance ..
  · exact .refl _

theorem enqueueOutbox (o : OutboxRow) : Moves env r (r.enqueueOutbox o) := by
  unfold InstanceRows.enqueueOutbox
  split
  · exact .refl _
  · exact .single (.outbox [o])

theorem fire (join : WorkflowNode) (round arrived expected : Int) (exclude : Option Uuid) :
    Moves env r (r.fire now join round arrived expected exclude) := by
  have hskip : ∀ (r : InstanceRows) (id : Uuid), Moves env r (r.skipOthers id) := fun r id =>
    (Moves.single (.timers _ .cancelled)).tail (.activities _ ActivityRow.skip fun _ => rfl)
  unfold InstanceRows.fire InstanceRows.skipRemaining
  dsimp only
  split
  · split
    · exact ((log r now ..).trans (hskip ..)).trans (log ..)
    · exact (log r now ..).trans (hskip ..)
  · exact log ..

theorem completeActivity (id : Uuid) (result : Option String) (actor : Int) (notes : Option String)
    (payload : Json) : Moves env r (r.completeActivity now id result actor notes payload) :=
  ((Moves.single (.activities _ (ActivityRow.complete _ actor notes now) fun _ => rfl)).tail
    (.timers _ .cancelled)).tail (.event _)

theorem timeOutActivity (id : Uuid) : Moves env r (r.timeOutActivity now id) :=
  ((Moves.single (.activities _ ActivityRow.skip fun _ => rfl)).tail (.timers _ .cancelled)).tail
    (.event _)

theorem timerFired (t : TimerRow) (id : Uuid) (nodeId : String) : Moves env r (r.timerFired now t id nodeId) :=
  (Moves.single (.timers _ .fired)).tail (.event _)

theorem assign (cmd : SignalCommand) (id : Uuid) : Moves env r (r.assign now cmd id) :=
  (single (.activities _ (fun a => { a with assigneeId := cmd.assigneeId }) fun _ => rfl)).tail (.event _)

theorem escalate (a : ActivityInstance) (role : String) : Moves env r (r.escalate now a role) :=
  (single (.activities _ (fun a => { a with assigneeRole := some role }) fun _ => rfl)).tail (.event _)

theorem resume (a : ActivityInstance) : Moves env r (r.resume now a) := by
  unfold InstanceRows.resume
  split
  · exact (updateInstance r fun i => { i with status := .active }).trans (log ..)
  · exact .refl _

theorem resolve (cmd : SignalCommand) (a : ActivityInstance) : Moves env r (r.resolve now cmd a) :=
  ((log r now ..).trans (completeActivity ..)).trans (resume ..)

end Moves

section
variable {svc : WorkflowService} {env : Env} {ctx : InstanceCtx} {source : ActivityInstance} {round : Int}

theorem Scheduled.move {target : String} {node : WorkflowNode} {role : Option String} {n : Int}
    {fanout : Option FanoutMark} {row : ActivityRow} {r r' : InstanceRows}
    (h : Scheduled env ctx.tenantId node role n fanout r row r') (hnode : ctx.node target = .ok node)
    (hsnapshot : r.snapshot = ctx.snapshot) : Move env r r' := by
  obtain ⟨hfind, hid⟩ := InstanceCtx.node_ok hnode
  exact .schedule h (by rw [hsnapshot, hid]; exact hfind)

theorem Branches.moves {via : String} {targets : List ParallelTarget} {rows : List ActivityRow}
    {r r' : InstanceRows} (h : Branches env ctx round via targets r rows r')
    (hsnapshot : r.snapshot = ctx.snapshot) : Moves env r r' := by
  induction h with
  | nil => exact .refl _
  | cons hnode hsched _ ih =>
    exact (Moves.single (hsched.move hnode hsnapshot)).trans (ih (hsched.snapshot.trans hsnapshot))

theorem fanOutRows_moves (trace : ResolveTrace) (targets : List ParallelTarget) (r : InstanceRows) :
    Moves env r (fanOutRows env source round trace targets r) :=
  (Moves.passMerges r env.now source.activityDefinitionId round trace.mergesPassed).trans
    ((Moves.single (.inst _)).tail (.event _))

theorem Reaches.moves {outcome : AdvanceOutcome} {trace : ResolveTrace} {r r₁ : InstanceRows}
    {join : WorkflowNode} {exclude : Option Uuid}
    (h : Reaches env ctx source round outcome trace r join exclude r₁) : Moves env r r₁ := by
  cases h with
  | arrive => exact (Moves.passMerges ..).trans (.log ..)
  | emptyFanOut => exact fanOutRows_moves ..

/-- An applied outcome is a sequence of writes. -/
theorem Applied.moves {outcome : AdvanceOutcome} {trace : ResolveTrace} {r r' : InstanceRows}
    (h : Applied env ctx source round svc outcome trace r r') (hsnapshot : r.snapshot = ctx.snapshot) :
    Moves env r r' := by
  induction h with
  | @schedule _ _ trace r _ _ _ hnode _ hsched =>
    have hmerges : Moves env r _ := .passMerges r env.now source.activityDefinitionId round trace.mergesPassed
    exact (hmerges.tail (hsched.move hnode (hmerges.snapshot.trans hsnapshot))).trans (.pointTo ..)
  | @fan targets trace r _ _ _ hbranches =>
    have hfan : Moves env r (fanOutRows env source round trace targets r) := fanOutRows_moves trace targets r
    exact hfan.trans (hbranches.moves (hfan.snapshot.trans hsnapshot))
  | wait hreach _ _ => exact hreach.moves.trans (.updateInstance ..)
  | @fire _ _ _ _ _ join exclude arrived expected hreach _ _ _ ih =>
    have hfire := hreach.moves.trans (.fire _ env.now join round arrived expected exclude)
    exact hfire.trans (ih (hfire.snapshot.trans hsnapshot))
  | @complete result trace r r₁ os _ hr₁ _ =>
    subst hr₁
    exact (((Moves.passMerges ..).trans (.updateInstance ..)).trans (.log ..)).tail (.outbox os)
  | @rework _ _ trace r _ _ _ _ _ hnode hsched =>
    have hmerges : Moves env r _ := .passMerges r env.now source.activityDefinitionId round trace.mergesPassed
    exact ((hmerges.tail (hsched.move hnode (hmerges.snapshot.trans hsnapshot))).trans
      (.updateInstance ..)).trans (.log ..)
  | error => exact ((Moves.passMerges ..).trans (.errorOut _)).trans (.log ..)

/-- Every call is a sequence of writes. -/
theorem Effect.moves {call : Call} {r r' : InstanceRows} (h : Effect svc env call r r') : Moves env r r' := by
  cases h with
  | nothing => exact .refl _
  | assignee => exact .assign ..
  | @advance cmd _ r₁ _ row node ctx _ _ _ _ _ _ _ hctx happly =>
    have hwritten : Moves env r r₁ := by
      cases hctx with
      | none => exact .refl _
      | merged => exact (Moves.single (.inst _)).tail (.event _)
    have hbefore := hwritten.trans (.resolve r₁ env.now cmd (row.intoModel r.inst.id))
    exact hbefore.trans (happly.moves (hbefore.snapshot.trans hctx.snapshot.symm))
  | @reenter _ key _ _ _ _ _ _ _ _ _ _ _ hnode hsched =>
    have hbefore : Moves env r (r.reactivate env.now (r.maxRound + 1) key) :=
      (Moves.single (.inst _)).tail (.event _)
    have hsched : Scheduled env r.ctx.tenantId _ _ _ _ _ _ _ := hsched
    exact (hbefore.tail (hsched.move hnode hbefore.snapshot)).trans (.pointTo ..)
  | timerGone => exact .single (.timers _ .fired)
  | reminder => exact (Moves.timerFired ..).trans (.enqueueOutbox ..)
  | escalationGone => exact .timerFired ..
  | escalated => exact ((Moves.timerFired ..).trans (.escalate ..)).trans (.enqueueOutbox ..)
  | @timedOut t _ _ row node _ _ _ _ _ _ _ happly =>
    have hbefore : Moves env r _ :=
      (Moves.timerFired r env.now t row.id node.id).trans (.timeOutActivity _ env.now row.id)
    exact hbefore.trans (happly.moves hbefore.snapshot)
  | @delivered _ _ row _ _ _ _ happly =>
    have hbefore : Moves env r (r.deliver env.now row.id) := .completeActivity ..
    exact hbefore.trans (happly.moves hbefore.snapshot)
  | callback => exact .single (.inst _)
  | deadLetter => exact .log ..

/-- A start is a sequence of writes to the inserted rows. -/
theorem Started.moves {supply : Supply} {cmd : StartCommand} {r : InstanceRows}
    (h : Started svc env supply cmd r) : Moves env (insertedRows supply cmd) r := by
  obtain ⟨entryId, entryRole, node, row, r₁, -, hfind, hsched, rfl⟩ := h.rows
  have hid : node.id = entryId := by simpa using List.find?_some hfind
  exact ((Moves.single (.event _)).tail (.schedule hsched (by rw [hid]; exact hfind))).trans (.pointTo ..)

end

/-- What holds of inserted rows and every write keeps, holds of every instance in every run. -/
theorem moves_invariant {svc : WorkflowService} {P : InstanceRows → Prop}
    (hinit : ∀ supply cmd, P (insertedRows supply cmd)) (hmove : ∀ {env r r'}, P r → Move env r r' → P r')
    {store : Store} (h : (engine svc).Reachable store) : ∀ r ∈ store, P r :=
  rows_invariant (fun _ _ _ _ hstarted => hstarted.moves.invariant hmove (hinit _ _))
    (fun _ _ _ _ _ hr heffect => heffect.moves.invariant hmove hr) h

end Fusions.Hetuflow
