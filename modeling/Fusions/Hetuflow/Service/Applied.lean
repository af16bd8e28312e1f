import Fusions.Hetuflow.Service.Effects

/-! The relation `Applied`: everything `apply_outcome` can do to the rows when it returns. -/
namespace Fusions.Hetuflow
open Fusions.Library Program

namespace InstanceRows

/-- The `workflow.merge_passed.v1` facts of a trace. -/
def passMerges (r : InstanceRows) (now : Time) (fromId : String) (round : Int) (merges : List String) :
    InstanceRows :=
  merges.foldl (fun r m => r.log now .mergePassed (mergePassedPayload fromId m round) none) r

/-- What one `workflow.merge_passed.v1` keeps, all of a trace keep. -/
theorem passMerges_induction {P : InstanceRows → Prop} {now : Time} {fromId : String} {round : Int}
    (merges : List String) {r : InstanceRows} (h : P r)
    (hlog : ∀ r p, P r → P (r.log now .mergePassed p none)) : P (r.passMerges now fromId round merges) :=
  List.foldlRecOn merges _ h fun r hr _ _ => hlog r _ hr

/-- The skip of a join that fires, when its strategy asks for one. -/
def skipRemaining (r : InstanceRows) (now : Time) (join : WorkflowNode) (exclude : Uuid) : InstanceRows :=
  let n := r.activities.countP (ActivityRow.isOtherActive exclude)
  if n > 0 then (r.skipOthers exclude).log now .activitySkipped (siblingsSkippedPayload join.id n) none
  else r.skipOthers exclude

/-- `enter_returned_waiting`. -/
def enterWaiting (r : InstanceRows) (id : Uuid) : InstanceRows :=
  r.updateInstance fun i => { i with status := .returnedWaiting, currentActivityId := some id }

/-- A join that fires, before the outcome of its edge. -/
def fire (r : InstanceRows) (now : Time) (join : WorkflowNode) (round arrived expected : Int)
    (exclude : Option Uuid) : InstanceRows :=
  let r := r.log now .parallelJoinSatisfied (joinSatisfiedPayload join.id arrived expected round) none
  if (join.joinStrategy.getD .waitAll).skipsRemainingOnSatisfaction then
    r.skipRemaining now join (exclude.getD Uuid.nil)
  else r

end InstanceRows

/-- Arrivals and expected count of a join, as `try_satisfy_join` reads them. -/
def JoinCounts (snapshot : DefinitionSnapshot) (r : InstanceRows) (joinId : String)
    (round arrived expected : Int) : Prop :=
  ∃ dynamic ids, r.forEachBranchCount joinId round = .ok dynamic ∧
    WorkflowService.branchExpectation snapshot joinId dynamic = .ok (expected, ids) ∧
    arrived = r.countCompletedBranches ids round

/-- The branches of a fan-out scheduled in order. -/
inductive Branches (env : Env) (ctx : InstanceCtx) (round : Int) (via : String) :
    List ParallelTarget → InstanceRows → List ActivityRow → InstanceRows → Prop where
  | nil {r : InstanceRows} : Branches env ctx round via [] r [] r
  | cons {t : ParallelTarget} {ts : List ParallelTarget} {node : WorkflowNode} {row : ActivityRow}
      {rows : List ActivityRow} {r r₁ r₂ : InstanceRows} :
      ctx.node t.nodeId = .ok node →
      Scheduled env ctx.tenantId node t.assigneeRole round (some ⟨via, t.itemIndex, t.itemPayload⟩)
        r row r₁ →
      Branches env ctx round via ts r₁ rows r₂ → Branches env ctx round via (t :: ts) r (row :: rows) r₂

/-- The start asked for a callback on approval, as `terminal_callback` reads it back from the log. -/
def InstanceRows.asksCallback (r : InstanceRows) : Bool :=
  match r.events.find? fun e => e.eventType == .started with
  | none => false
  | some started =>
    match started.payload.get "terminal_callback" with
    | none | some .null => false
    | some _ => true

/-- The outbox intents of a completion: the business callback of an approved instance that asks for one. -/
def CallbackIntents (r : InstanceRows) (result : WorkflowResult) (os : List OutboxRow) : Prop :=
  if result = .approved ∧ r.asksCallback = true then
    ∃ o, o.activityType = "business_callback" ∧ r.enqueueOutbox o = { r with outbox := r.outbox ++ os }
  else os = []

section
variable (env : Env) (ctx : InstanceCtx) (source : ActivityInstance) (round : Int)

/-- `via` and marker of a fan-out. -/
def fanOutVia (trace : ResolveTrace) : String :=
  if trace.forEachFanOut.isSome then "for_each" else "parallel_split"

def fanOutMarker (trace : ResolveTrace) (targets : List ParallelTarget) : EventType × Json :=
  match trace.forEachFanOut with
  | some fan => (.forEachFannedOut, forEachFannedOutPayload fan targets.length round)
  | none => (.parallelSplitScheduled, splitScheduledPayload source.activityDefinitionId targets round)

/-- The rows after merges, cleared current activity and marker of a fan-out. -/
def fanOutRows (trace : ResolveTrace) (targets : List ParallelTarget) (r : InstanceRows) : InstanceRows :=
  let m := fanOutMarker source round trace targets
  ((r.passMerges env.now source.activityDefinitionId round trace.mergesPassed).clearCurrent).log env.now
    m.1 m.2 none

/-- The outcome leads to an evaluation of a join: a branch arrives, or an empty collection fans out. -/
inductive Reaches :
    AdvanceOutcome → ResolveTrace → InstanceRows → WorkflowNode → Option Uuid → InstanceRows → Prop where
  | arrive {target : String} {role : Option String} {trace : ResolveTrace} {r : InstanceRows}
      {join : WorkflowNode} :
      ctx.node target = .ok join → join.kind = .parallelJoin →
      Reaches (.advance target role) trace r join (some source.id)
        ((r.passMerges env.now source.activityDefinitionId round trace.mergesPassed).log env.now
          .branchReachedJoin (branchReachedPayload source.activityDefinitionId join.id round) none)
  | emptyFanOut {trace : ResolveTrace} {fan : ForEachFanOut} {r : InstanceRows} {join : WorkflowNode} :
      trace.forEachFanOut = some fan → ctx.node fan.joinTarget = .ok join →
      Reaches (.advanceMulti []) trace r join none (fanOutRows env source round trace [] r)

variable (svc : WorkflowService)

/-- What an applied outcome does to the rows. -/
inductive Applied : AdvanceOutcome → ResolveTrace → InstanceRows → InstanceRows → Prop where
  | schedule {target : String} {role : Option String} {trace : ResolveTrace} {r r₁ : InstanceRows}
      {node : WorkflowNode} {row : ActivityRow} :
      ctx.node target = .ok node → node.kind ≠ .parallelJoin →
      Scheduled env ctx.tenantId node role round none
        (r.passMerges env.now source.activityDefinitionId round trace.mergesPassed) row r₁ →
      Applied (.advance target role) trace r (r₁.pointTo row.id)
  | fan {targets : List ParallelTarget} {trace : ResolveTrace} {r r₁ : InstanceRows}
      {rows : List ActivityRow} :
      (trace.forEachFanOut.isSome → targets ≠ []) →
      Branches env ctx round (fanOutVia trace) targets (fanOutRows env source round trace targets r)
        rows r₁ →
      Applied (.advanceMulti targets) trace r r₁
  | wait {outcome : AdvanceOutcome} {trace : ResolveTrace} {r r₁ : InstanceRows} {join : WorkflowNode}
      {exclude : Option Uuid} {arrived expected : Int} :
      Reaches env ctx source round outcome trace r join exclude r₁ →
      JoinCounts ctx.snapshot r₁ join.id round arrived expected →
      (join.joinStrategy.getD .waitAll).isSatisfied arrived expected = false →
      Applied outcome trace r r₁.clearCurrent
  | fire {outcome : AdvanceOutcome} {trace : ResolveTrace} {r r₁ r₂ : InstanceRows} {join : WorkflowNode}
      {exclude : Option Uuid} {arrived expected : Int} :
      Reaches env ctx source round outcome trace r join exclude r₁ →
      JoinCounts ctx.snapshot r₁ join.id round arrived expected →
      (join.joinStrategy.getD .waitAll).isSatisfied arrived expected = true →
      Applied
        (decideAdvance svc.cel ctx.snapshot.nodes ctx.snapshot.transitions ctx.context join.id .approved).1
        (decideAdvance svc.cel ctx.snapshot.nodes ctx.snapshot.transitions ctx.context join.id .approved).2
        (r₁.fire env.now join round arrived expected exclude) r₂ →
      Applied outcome trace r r₂
  | complete {result : WorkflowResult} {trace : ResolveTrace} {r r₁ : InstanceRows} {os : List OutboxRow} :
      r.inst.status = .active →
      r₁ = ((r.passMerges env.now source.activityDefinitionId round trace.mergesPassed).finish env.now
        result).log env.now .completed (completedPayload result) none →
      CallbackIntents r₁ result os →
      Applied (.complete result) trace r { r₁ with outbox := r₁.outbox ++ os }
  | rework {target : String} {role : Option String} {trace : ResolveTrace} {r r₁ : InstanceRows}
      {node : WorkflowNode} {row : ActivityRow} :
      svc.checkRound ctx (r.maxRound + 1) = .ok () → r.inst.status = .active →
      ctx.node target = .ok node →
      Scheduled env ctx.tenantId node role (r.maxRound + 1) none
        (r.passMerges env.now source.activityDefinitionId round trace.mergesPassed) row r₁ →
      Applied (.rework target role) trace r
        ((r₁.enterWaiting row.id).log env.now .returnedToRework
          (returnedToReworkPayload source.activityDefinitionId node.id (r.maxRound + 1) row.id role) none)
  | error {trace : ResolveTrace} {r : InstanceRows} {reason : String} :
      Applied .error trace r
        ((r.passMerges env.now source.activityDefinitionId round trace.mergesPassed).errorOut.log env.now
          .errored (erroredPayload reason) none)

end

section
variable {svc : WorkflowService} {env : Env} {ctx : InstanceCtx} {source : ActivityInstance} {round : Int}
  {tx tx' : Tx} {u : Unit}

@[simp] theorem passMerges_inst (r : InstanceRows) (now : Time) (f : String) (n : Int) (ms : List String) :
    (r.passMerges now f n ms).inst = r.inst :=
  InstanceRows.passMerges_induction (P := fun r' => r'.inst = r.inst) ms rfl fun _ _ hr => hr

@[simp] theorem passMerges_activities (r : InstanceRows) (now : Time) (f : String) (n : Int)
    (ms : List String) : (r.passMerges now f n ms).activities = r.activities :=
  InstanceRows.passMerges_induction (P := fun r' => r'.activities = r.activities) ms rfl fun _ _ hr => hr

@[simp] theorem passMerges_snapshot (r : InstanceRows) (now : Time) (f : String) (n : Int)
    (ms : List String) : (r.passMerges now f n ms).snapshot = r.snapshot :=
  InstanceRows.passMerges_induction (P := fun r' => r'.snapshot = r.snapshot) ms rfl fun _ _ hr => hr

@[simp] theorem fire_inst (r : InstanceRows) (now : Time) (join : WorkflowNode) (n arrived expected : Int)
    (exclude : Option Uuid) : (r.fire now join n arrived expected exclude).inst = r.inst := by
  unfold InstanceRows.fire InstanceRows.skipRemaining
  dsimp only
  split
  · split <;> rfl
  · rfl

@[simp] theorem fire_snapshot (r : InstanceRows) (now : Time) (join : WorkflowNode) (n arrived expected : Int)
    (exclude : Option Uuid) : (r.fire now join n arrived expected exclude).snapshot = r.snapshot := by
  unfold InstanceRows.fire InstanceRows.skipRemaining
  dsimp only
  split
  · split <;> rfl
  · rfl

/-- A join that fires leaves the other activities as they are, or skips those still active. -/
theorem fire_activities (r : InstanceRows) (now : Time) (join : WorkflowNode) (n arrived expected : Int)
    (exclude : Option Uuid) :
    (r.fire now join n arrived expected exclude).activities =
      if (join.joinStrategy.getD .waitAll).skipsRemainingOnSatisfaction then
        r.activities.map fun a => if a.isOtherActive (exclude.getD Uuid.nil) then a.skip else a
      else r.activities := by
  unfold InstanceRows.fire InstanceRows.skipRemaining
  dsimp only
  split
  · split <;> rfl
  · rfl

theorem status_of_mem_fire {r : InstanceRows} {now : Time} {join : WorkflowNode} {n arrived expected : Int}
    {exclude : Option Uuid} {a : ActivityRow}
    (ha : a ∈ (r.fire now join n arrived expected exclude).activities) (hactive : a.status = .active) :
    a ∈ r.activities := by
  rw [fire_activities] at ha
  split at ha
  · obtain ⟨b, hb, rfl⟩ := List.mem_map.1 ha
    split at hactive
    · cases hactive
    · next h => simpa [h] using hb
  · exact ha

/-- The rows where a join is looked at: nothing but the current activity has changed. -/
theorem Reaches.rows {outcome : AdvanceOutcome} {trace : ResolveTrace} {r r₁ : InstanceRows}
    {join : WorkflowNode} {exclude : Option Uuid}
    (h : Reaches env ctx source round outcome trace r join exclude r₁) :
    r₁.activities = r.activities ∧ r₁.snapshot = r.snapshot ∧ r₁.inst.status = r.inst.status ∧
      (exclude = some source.id ∨ exclude = none) := by
  cases h with
  | arrive =>
    exact ⟨passMerges_activities .., passMerges_snapshot .., by simp [InstanceRows.log, InstanceRows.appendEvent],
      .inl rfl⟩
  | emptyFanOut =>
    refine ⟨passMerges_activities .., passMerges_snapshot .., ?_, .inr rfl⟩
    simp [fanOutRows, InstanceRows.log, InstanceRows.appendEvent, InstanceRows.clearCurrent,
      InstanceRows.updateInstance]

private theorem returns_merges (trace : ResolveTrace) :
    Returns (exec env) (WorkflowService.appendMerges source round trace) tx u tx' ↔
      tx' = tx.map (·.passMerges env.now source.activityDefinitionId round trace.mergesPassed) := by
  unfold WorkflowService.appendMerges InstanceRows.passMerges
  induction trace.mergesPassed generalizing tx with
  | nil => rw [returns_forM_nil]; rfl
  | cons m ms ih =>
    rw [returns_forM_cons]
    simp only [returns_append, exists_eq_left]
    exact ih

private theorem branches_of_returns {via : String} {targets : List ParallelTarget}
    (h : Returns (exec env) (svc.scheduleBranches ctx round via targets) tx u tx') :
    ∃ rows, Branches env ctx round via targets tx.rows rows tx'.rows := by
  unfold WorkflowService.scheduleBranches at h
  induction targets generalizing tx with
  | nil =>
    rw [(returns_forM_nil _ _ _ _ _).1 h]
    exact ⟨[], .nil⟩
  | cons t ts ih =>
    obtain ⟨t₁, hone, hrest⟩ := (returns_forM_cons _ _ _ _ _ _ _).1 h
    simp only [returns_bind, returns_ofExcept, returns_pure] at hone
    obtain ⟨node, _, ⟨hnode, rfl⟩, a, t₂, hsched, -, rfl⟩ := hone
    obtain ⟨row, -, hrow⟩ := returns_scheduleActivity hsched
    obtain ⟨rows, hrows⟩ := ih hrest
    exact ⟨row :: rows, .cons hnode hrow hrows⟩

private theorem joinCounts_of_returns {join : WorkflowNode} {x : Int × List String}
    (h : Returns (exec env) (WorkflowService.joinExpectation ctx round join) tx x tx') :
    tx' = tx ∧ JoinCounts ctx.snapshot tx.rows join.id round (tx.rows.countCompletedBranches x.2 round) x.1 := by
  simp only [WorkflowService.joinExpectation, returns_bind, returns_ofExcept] at h
  obtain ⟨dynamic, t₁, hdyn, hx, rfl⟩ := h
  rw [returns_stmt, exec] at hdyn
  split at hdyn
  · next hcount =>
    cases hdyn
    exact ⟨rfl, dynamic, x.2, hcount, hx, rfl⟩
  · cases hdyn

private theorem returns_skipRemaining {join : WorkflowNode} {exclude : Option Uuid}
    (h : Returns (exec env) (WorkflowService.skipRemaining join exclude) tx u tx') :
    tx' = tx.map (·.skipRemaining env.now join (exclude.getD Uuid.nil)) := by
  simp only [WorkflowService.skipRemaining, returns_bind, returns_skipOthers, returns_whenever,
    returns_append] at h
  obtain ⟨n, t₁, ⟨rfl, rfl⟩, h⟩ := h
  rcases h with ⟨hn, rfl⟩ | ⟨hn, rfl⟩ <;>
    simp only [decide_eq_true_eq, decide_eq_false_iff_not] at hn <;>
    simp [Tx.map, InstanceRows.skipRemaining, hn]

/-- A join evaluation that returns either keeps waiting or fires and goes on with `next`. -/
private theorem returns_trySatisfyJoin {next : AdvanceOutcome → ResolveTrace → Prog Unit}
    {join : WorkflowNode} {exclude : Option Uuid}
    (h : Returns (exec env) (svc.trySatisfyJoin next ctx round join exclude) tx u tx') :
    ∃ arrived expected, JoinCounts ctx.snapshot tx.rows join.id round arrived expected ∧
      (((join.joinStrategy.getD .waitAll).isSatisfied arrived expected = false ∧
          tx'.rows = tx.rows.clearCurrent) ∨
        ((join.joinStrategy.getD .waitAll).isSatisfied arrived expected = true ∧
          let d := decideAdvance svc.cel ctx.snapshot.nodes ctx.snapshot.transitions ctx.context join.id
            .approved
          Returns (exec env) (next d.1 d.2)
            (tx.map (·.fire env.now join round arrived expected exclude)) u tx')) := by
  simp only [WorkflowService.trySatisfyJoin, returns_bind] at h
  obtain ⟨x, t₁, hx, arrived, t₂, harr, h⟩ := h
  obtain ⟨rfl, hcounts⟩ := joinCounts_of_returns hx
  obtain ⟨rfl, rfl⟩ := (returns_exec rfl _).1 harr
  refine ⟨_, _, hcounts, ?_⟩
  rcases (returns_ite _ _ _ _ _ _ _).1 h with ⟨hsat, h⟩ | ⟨hsat, h⟩
  · refine .inr ⟨hsat, ?_⟩
    simp only [WorkflowService.satisfyJoin, returns_bind, returns_append, returns_whenever] at h
    obtain ⟨_, t₃, rfl, _, t₄, hskip, h⟩ := h
    have ht : t₄ = t₂.map (·.fire env.now join round (t₂.rows.countCompletedBranches x.2 round) x.1 exclude) := by
      rcases hskip with ⟨hs, hskip⟩ | ⟨hs, rfl⟩
      · rw [returns_skipRemaining hskip]
        simp [Tx.map, InstanceRows.fire, hs]
      · simp [Tx.map, InstanceRows.fire, hs]
    rw [← ht]
    exact h
  · refine .inl ⟨by simpa using hsat, ?_⟩
    rw [((returns_exec rfl _).1 h).2]
    rfl

private theorem returns_terminalCallback {tc : Option TerminalCallback}
    (h : Returns (exec env) WorkflowService.terminalCallback tx tc tx') :
    tx' = tx ∧ tc.isSome = tx.rows.asksCallback := by
  simp only [WorkflowService.terminalCallback, returns_bind] at h
  obtain ⟨events, t₁, hev, h⟩ := h
  obtain ⟨rfl, rfl⟩ := (returns_exec rfl _).1 hev
  have hfind : (t₁.rows.events.map EventRow.intoRecord).find? (fun e => e.eventType == .started) =
      (t₁.rows.events.find? fun e => e.eventType == .started).map EventRow.intoRecord := by
    rw [List.find?_map]
    rfl
  rw [hfind] at h
  unfold InstanceRows.asksCallback
  cases hstarted : t₁.rows.events.find? fun e => e.eventType == .started with
  | none =>
    simp only [hstarted, Option.map_none, returns_pure] at h
    exact ⟨h.2, by rw [h.1]; rfl⟩
  | some started =>
    simp only [hstarted, Option.map_some, EventRow.intoRecord] at h
    dsimp only
    cases hget : started.payload.get "terminal_callback" with
    | none =>
      simp only [hget, returns_pure] at h
      exact ⟨h.2, by rw [h.1]; rfl⟩
    | some value =>
      cases value with
      | null =>
        simp only [hget, returns_pure] at h
        exact ⟨h.2, by rw [h.1]; rfl⟩
      | _ =>
        simp only [hget] at h
        split at h
        · simp only [returns_pure] at h
          exact ⟨h.2, by rw [h.1]; rfl⟩
        · exact absurd h (returns_fail _ _ _ _ _)

private theorem enqueueOutbox_eq (r : InstanceRows) (o : OutboxRow) :
    ∃ os, r.enqueueOutbox o = { r with outbox := r.outbox ++ os } := by
  obtain ⟨os, hos, -⟩ := addsOutbox_enqueue r o
  exact ⟨os, hos⟩

private theorem returns_runTerminalCallback
    (h : Returns (exec env) (svc.runTerminalCallback ctx) tx u tx') :
    ∃ os : List OutboxRow, tx'.rows = { tx.rows with outbox := tx.rows.outbox ++ os } ∧
      CallbackIntents tx.rows .approved os := by
  simp only [WorkflowService.runTerminalCallback, returns_bind] at h
  obtain ⟨tc, t₁, htc, h⟩ := h
  obtain ⟨rfl, hasks⟩ := returns_terminalCallback htc
  cases tc with
  | none =>
    rw [((returns_pure _ _ _ _ _).1 h).2]
    exact ⟨[], by simp, by simp [CallbackIntents, ← hasks]⟩
  | some tc =>
    simp only [WorkflowService.enqueueTerminalCallback, returns_bind] at h
    obtain ⟨active, t₂, hact, all, t₃, hlist, h⟩ := h
    obtain ⟨-, rfl⟩ := (returns_exec rfl _).1 hact
    obtain ⟨-, rfl⟩ := (returns_exec rfl _).1 hlist
    split at h
    · exact absurd h (returns_fail _ _ _ _ _)
    · split at h
      · exact absurd h (returns_fail _ _ _ _ _)
      · rw [((returns_exec rfl _).1 h).2]
        obtain ⟨os, hos⟩ := enqueueOutbox_eq t₃.rows _
        refine ⟨os, hos, ?_⟩
        rw [CallbackIntents, if_pos ⟨rfl, hasks.symm⟩]
        exact ⟨_, rfl, hos⟩

private theorem returns_completeInstance {result : WorkflowResult}
    (h : Returns (exec env) (svc.completeInstance ctx result) tx u tx') :
    tx.rows.inst.status = .active ∧ ∃ os : List OutboxRow,
      tx'.rows = { ((tx.rows.finish env.now result).log env.now .completed (completedPayload result) none) with
        outbox := tx.rows.outbox ++ os } ∧
      CallbackIntents ((tx.rows.finish env.now result).log env.now .completed (completedPayload result) none)
        result os := by
  simp only [WorkflowService.completeInstance, returns_bind] at h
  obtain ⟨hit, t₁, hcas, h⟩ := h
  obtain ⟨rfl, rfl⟩ := (returns_exec rfl _).1 hcas
  by_cases hs : tx.rows.inst.status = .active
  · refine ⟨hs, ?_⟩
    simp only [hs, beq_self_eq_true, ↓reduceIte, returns_bind, returns_append,
      returns_whenever] at h
    obtain ⟨_, t₂, rfl, h⟩ := h
    rcases h with ⟨hresult, h⟩ | ⟨hresult, rfl⟩
    · obtain rfl : result = .approved := by simpa using hresult
      obtain ⟨os, hos, hintents⟩ := returns_runTerminalCallback h
      exact ⟨os, hos, hintents⟩
    · refine ⟨[], ?_, ?_⟩
      · simp [Tx.map, InstanceRows.finish, InstanceRows.log, InstanceRows.appendEvent,
          InstanceRows.updateInstance, InstanceRows.nextSeq]
      · have hne : result ≠ .approved := by simpa using hresult
        simp [CallbackIntents, hne]
  · simp [hs] at h

private theorem returns_failInstance {reason : String}
    (h : Returns (exec env) (WorkflowService.failInstance reason) tx u tx') :
    tx'.rows = tx.rows.errorOut.log env.now .errored (erroredPayload reason) none := by
  simp only [WorkflowService.failInstance, returns_bind, returns_append] at h
  obtain ⟨hit, t₁, hcas, rfl⟩ := h
  obtain ⟨-, rfl⟩ := (returns_exec rfl _).1 hcas
  by_cases hs : tx.rows.inst.status = .active <;> simp [InstanceRows.errorOut, hs]

private theorem returns_clearCurrent
    (h : Returns (exec env) (stmt .clearCurrentActivity : Prog Unit) tx u tx') :
    tx' = tx.map InstanceRows.clearCurrent :=
  ((returns_exec rfl _).1 h).2

/-- What the arms of `apply_outcome` do, once the merges are recorded and given what `next` does. -/
private theorem applied_of_advance {next : AdvanceOutcome → ResolveTrace → Prog Unit}
    (hnext : ∀ {o : AdvanceOutcome} {t : ResolveTrace} {s s' : Tx} {v : Unit},
      Returns (exec env) (next o t) s v s' → Applied env ctx source round svc o t s.rows s'.rows)
    {target : String} {role : Option String} {trace : ResolveTrace}
    (h : Returns (exec env) (svc.applyArm next ctx source round (.advance target role) trace)
      (tx.map (·.passMerges env.now source.activityDefinitionId round trace.mergesPassed)) u tx') :
    Applied env ctx source round svc (.advance target role) trace tx.rows tx'.rows := by
  simp only [WorkflowService.applyArm, returns_bind, returns_ofExcept] at h
  obtain ⟨node, _, ⟨hnode, rfl⟩, h⟩ := h
  rcases (returns_ite _ _ _ _ _ _ _).1 h with ⟨hk, h⟩ | ⟨hk, h⟩
  · simp only [WorkflowService.branchReachedJoin, returns_bind, returns_append] at h
    obtain ⟨_, t₁, rfl, h⟩ := h
    obtain ⟨arrived, expected, hcounts, ⟨hsat, hrows⟩ | ⟨hsat, hret⟩⟩ := returns_trySatisfyJoin h
    · rw [hrows]
      exact .wait (.arrive hnode (by simpa using hk)) hcounts hsat
    · exact .fire (.arrive hnode (by simpa using hk)) hcounts hsat (hnext hret)
  · simp only [returns_bind, returns_pure] at h
    obtain ⟨a, t₁, hsched, hit, t₂, hpoint, -, rfl⟩ := h
    obtain ⟨row, rfl, hrow⟩ := returns_scheduleActivity hsched
    rw [returns_pointTo hpoint]
    exact .schedule hnode (by simpa using hk) hrow

private theorem applied_of_fanOut {next : AdvanceOutcome → ResolveTrace → Prog Unit}
    (hnext : ∀ {o : AdvanceOutcome} {t : ResolveTrace} {s s' : Tx} {v : Unit},
      Returns (exec env) (next o t) s v s' → Applied env ctx source round svc o t s.rows s'.rows)
    {targets : List ParallelTarget} {trace : ResolveTrace}
    (h : Returns (exec env) (svc.fanOut next ctx source round targets trace)
      (tx.map (·.passMerges env.now source.activityDefinitionId round trace.mergesPassed)) u tx') :
    Applied env ctx source round svc (.advanceMulti targets) trace tx.rows tx'.rows := by
  simp only [WorkflowService.fanOut, returns_bind] at h
  obtain ⟨_, t₁, hclear, h⟩ := h
  obtain rfl := returns_clearCurrent hclear
  cases hfan : trace.forEachFanOut with
  | none =>
    simp only [hfan, returns_bind, returns_append] at h
    obtain ⟨_, t₂, rfl, h⟩ := h
    obtain ⟨rows, hrows⟩ := branches_of_returns h
    refine .fan (by simp [hfan]) (?_ : Branches _ _ _ _ _ _ rows _)
    simpa [fanOutVia, fanOutRows, fanOutMarker, hfan] using hrows
  | some fan =>
    simp only [hfan, returns_bind, returns_append] at h
    obtain ⟨_, t₂, rfl, _, t₃, hbranches, h⟩ := h
    rcases (returns_ite _ _ _ _ _ _ _).1 h with ⟨hempty, hjoins⟩ | ⟨hempty, hstop⟩
    · obtain rfl : targets = [] := by simpa using hempty
      simp only [returns_bind, returns_ofExcept] at hjoins
      obtain ⟨join, _, ⟨hjoin, rfl⟩, heval⟩ := hjoins
      obtain rfl := (returns_forM_nil _ _ _ _ _).1 hbranches
      obtain ⟨arrived, expected, hcounts, hend⟩ := returns_trySatisfyJoin heval
      have hreach : Reaches env ctx source round _ _ tx.rows join none _ := .emptyFanOut hfan hjoin
      simp only [fanOutRows, fanOutMarker, hfan] at hreach
      rcases hend with ⟨hsat, hw⟩ | ⟨hsat, hret⟩
      · rw [hw]
        exact .wait hreach hcounts hsat
      · exact .fire hreach hcounts hsat (hnext hret)
    · obtain ⟨rows, hrows⟩ := branches_of_returns hbranches
      rw [((returns_pure _ _ _ _ _).1 hstop).2]
      refine .fan (fun _ => by simpa using hempty) (?_ : Branches _ _ _ _ _ _ rows _)
      simpa [fanOutVia, fanOutRows, fanOutMarker, hfan] using hrows

private theorem applied_of_rework {target : String} {role : Option String} {trace : ResolveTrace}
    (h : Returns (exec env) (svc.applyRework ctx source target role)
      (tx.map (·.passMerges env.now source.activityDefinitionId round trace.mergesPassed)) u tx') :
    Applied env ctx source round svc (.rework target role) trace tx.rows tx'.rows := by
  simp only [WorkflowService.applyRework, returns_bind] at h
  obtain ⟨n, t₁, hmax, h⟩ := h
  obtain ⟨rfl, rfl⟩ := (returns_exec rfl _).1 hmax
  split at h
  · simp at h
  next hcheck =>
  simp only [returns_bind, returns_ofExcept] at h
  obtain ⟨node, _, ⟨hnode, rfl⟩, a, t₂, hsched, hit, t₃, hcas, h⟩ := h
  obtain ⟨row, rfl, hrow⟩ := returns_scheduleActivity hsched
  obtain ⟨rfl, rfl⟩ := (returns_exec rfl _).1 hcas
  have hround : (tx.rows.passMerges env.now source.activityDefinitionId round trace.mergesPassed).maxRound =
      tx.rows.maxRound := by simp [InstanceRows.maxRound]
  by_cases hs : t₂.rows.inst.status = .active
  · simp only [hs, beq_self_eq_true, ↓reduceIte, returns_append] at h
    subst h
    simp only [Tx.map_rows, hround] at hcheck hrow ⊢
    refine .rework hcheck ?_ hnode hrow
    rw [hrow.inst] at hs
    simpa using hs
  · simp [hs] at h

private theorem applied_of_arm {next : AdvanceOutcome → ResolveTrace → Prog Unit}
    (hnext : ∀ {o : AdvanceOutcome} {t : ResolveTrace} {s s' : Tx} {v : Unit},
      Returns (exec env) (next o t) s v s' → Applied env ctx source round svc o t s.rows s'.rows)
    {outcome : AdvanceOutcome} {trace : ResolveTrace}
    (h : Returns (exec env) (svc.applyArm next ctx source round outcome trace)
      (tx.map (·.passMerges env.now source.activityDefinitionId round trace.mergesPassed)) u tx') :
    Applied env ctx source round svc outcome trace tx.rows tx'.rows := by
  cases outcome with
  | advance target role => exact applied_of_advance hnext h
  | advanceMulti targets => exact applied_of_fanOut hnext h
  | complete result =>
    obtain ⟨hs, os, hrows, hall⟩ := returns_completeInstance h
    rw [hrows]
    exact .complete (by simpa using hs) rfl hall
  | rework target role => exact applied_of_rework h
  | error =>
    rw [returns_failInstance h]
    exact .error

/-- Whatever `apply_outcome` does when it returns, it does by `Applied`. -/
theorem applied_of_returns {fuel : Nat} {outcome : AdvanceOutcome} {trace : ResolveTrace}
    (h : Returns (exec env) (svc.applyOutcome ctx source round fuel outcome trace) tx u tx') :
    Applied env ctx source round svc outcome trace tx.rows tx'.rows := by
  induction fuel generalizing outcome trace tx tx' u with
  | zero => exact absurd h (returns_diverge _ _ _ _)
  | succ fuel ih =>
    simp only [WorkflowService.applyOutcome, returns_mark, returns_bind, returns_merges] at h
    obtain ⟨_, t₁, rfl, h⟩ := h
    exact applied_of_arm ih h

end
end Fusions.Hetuflow
