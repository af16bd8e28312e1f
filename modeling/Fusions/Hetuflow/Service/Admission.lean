import Mathlib.Control.Monad.Basic
import Fusions.Hetuflow.Service.Operations

/-! The signals that get past the checks of the service, told from the rows they meet, and what a signal comes to
in the transaction of its caller. -/
namespace Fusions.Hetuflow
open Fusions.Library Program

/-- The activity that a signal is for: the active one it names, or else the only active one. -/
def InstanceRows.signalled (r : InstanceRows) (cmd : SignalCommand) : Option ActivityRow :=
  match cmd.activityId with
  | some id => (r.activities.find? (·.id == id)).filter fun a => a.status == .active
  | none =>
    match r.activeRows with
    | [row] => some row
    | _ => none

/-- A signal that is new to a visible, running instance. -/
structure Attended (cmd : SignalCommand) (r : InstanceRows) : Prop where
  keyed : isBlank cmd.idempotencyKey = false
  visible : cmd.scope.sees r.inst = true
  fresh : (r.events.any fun e => e.idempotencyKey == some cmd.idempotencyKey) = false
  running : r.inst.status.isTerminal = false

instance (cmd : SignalCommand) (r : InstanceRows) : Decidable (Attended cmd r) :=
  decidable_of_iff
    (isBlank cmd.idempotencyKey = false ∧ cmd.scope.sees r.inst = true ∧
      (r.events.any fun e => e.idempotencyKey == some cmd.idempotencyKey) = false ∧ r.inst.status.isTerminal = false)
    ⟨fun ⟨keyed, visible, fresh, running⟩ => ⟨keyed, visible, fresh, running⟩,
      fun h => ⟨h.keyed, h.visible, h.fresh, h.running⟩⟩

/-- A signal that is new to a visible, running instance, and that the node of its activity takes. -/
structure Admitted (cmd : SignalCommand) (r : InstanceRows) (row : ActivityRow) (node : WorkflowNode) : Prop where
  own : cmd.instanceId = r.inst.id
  keyed : isBlank cmd.idempotencyKey = false
  visible : cmd.scope.sees r.inst = true
  fresh : (r.events.any fun e => e.idempotencyKey == some cmd.idempotencyKey) = false
  running : r.inst.status.isTerminal = false
  target : r.signalled cmd = some row
  node_ok : r.ctx.node row.activityDefinitionId = .ok node
  takes : checkSignalAgainstNode node cmd.signal cmd.eventType = .ok ()

instance (cmd : SignalCommand) (r : InstanceRows) (row : ActivityRow) (node : WorkflowNode) :
    Decidable (Admitted cmd r row node) :=
  decidable_of_iff
    ((cmd.instanceId = r.inst.id ∧ isBlank cmd.idempotencyKey = false) ∧ cmd.scope.sees r.inst = true ∧
      (r.events.any fun e => e.idempotencyKey == some cmd.idempotencyKey) = false ∧
      r.inst.status.isTerminal = false ∧ r.signalled cmd = some row ∧
      r.ctx.node row.activityDefinitionId = .ok node ∧ checkSignalAgainstNode node cmd.signal cmd.eventType = .ok ())
    ⟨fun ⟨⟨own, keyed⟩, visible, fresh, running, target, node_ok, takes⟩ =>
        ⟨own, keyed, visible, fresh, running, target, node_ok, takes⟩,
      fun h => ⟨⟨h.own, h.keyed⟩, h.visible, h.fresh, h.running, h.target, h.node_ok, h.takes⟩⟩

theorem Admitted.attended {cmd : SignalCommand} {r : InstanceRows} {row : ActivityRow} {node : WorkflowNode}
    (h : Admitted cmd r row node) : Attended cmd r :=
  ⟨h.keyed, h.visible, h.fresh, h.running⟩

/-- The part of a signal after its activity is found. -/
def WorkflowService.signalTo (svc : WorkflowService) (fuel : Nat) (cmd : SignalCommand) (status : WorkflowStatus)
    (ctx : InstanceCtx) (activity : ActivityInstance) : Prog SignalOutcome := do
  let node ← ofExcept (ctx.node activity.activityDefinitionId)
  ofExcept (checkSignalAgainstNode node cmd.signal cmd.eventType)
  if cmd.signal == .claimed || cmd.signal == .reassigned then signalAssignee cmd ctx activity
  else svc.signalAdvance fuel cmd status ctx activity node

/-- A signal that moves the graph, and not only the assignee. -/
def SignalCommand.advances (cmd : SignalCommand) : Bool := !(cmd.signal == .claimed || cmd.signal == .reassigned)

/-- The rows after the transaction of a call: its caller commits on `Ok` and rolls back on `Err`. -/
def rowsAfter {α : Type} (r : InstanceRows) : Outcome FlowError (α × Tx) → InstanceRows
  | .ok (_, tx) => tx.rows
  | _ => r

section
variable {svc : WorkflowService} {env : Env} {cmd : SignalCommand} {r : InstanceRows} {row : ActivityRow}
  {node : WorkflowNode} {fuel drawn : Nat}

theorem status_of_signalled (h : r.signalled cmd = some row) : row ∈ r.activities ∧ row.status = .active := by
  unfold InstanceRows.signalled at h
  split at h
  · obtain ⟨hfind, hactive⟩ := Option.filter_eq_some_iff.1 h
    exact ⟨List.mem_of_find?_eq_some hfind, by simpa using hactive⟩
  · split at h
    · next one hrows =>
      obtain rfl := Option.some.inj h
      have hmem : one ∈ r.activeRows := by
        rw [hrows]
        exact List.mem_singleton_self _
      simpa [InstanceRows.activeRows] using hmem
    · cases h

theorem returns_resolveTarget (hown : cmd.instanceId = r.inst.id) (h : r.signalled cmd = some row) :
    Program.Returns (exec env) (resolveTargetActivity cmd) ⟨r, drawn⟩ (row.intoModel r.inst.id) ⟨r, drawn⟩ := by
  unfold InstanceRows.signalled at h
  unfold resolveTargetActivity
  cases hid : cmd.activityId with
  | some id =>
    rw [hid] at h
    obtain ⟨hfind, hactive⟩ := Option.filter_eq_some_iff.1 h
    have hactive : row.status = .active := by simpa using hactive
    have hload : Program.Returns (M := Uuid) (exec env) (stmt (.loadActivity id)) ⟨r, drawn⟩
        (some (row.intoModel r.inst.id)) ⟨r, drawn⟩ := by simp [exec, Tx.loadActivity, hfind]
    refine (returns_bind _ _ _ _ _ _).2 ⟨_, _, hload, ?_⟩
    simp [ActivityRow.intoModel, hown, hactive]
  | none =>
    rw [hid] at h
    dsimp only at h
    split at h
    · next one hrows =>
      obtain rfl := Option.some.inj h
      have hlist : Program.Returns (M := Uuid) (exec env) (stmt .activeActivities) ⟨r, drawn⟩ [one.intoModel r.inst.id]
          ⟨r, drawn⟩ := by simp [exec, InstanceRows.models, hrows]
      refine (returns_bind _ _ _ _ _ _).2 ⟨_, _, hlist, ?_⟩
      simp
    · cases h

/-- A signal finds an activity exactly if the instance has one that the signal is for. -/
theorem signalled_of_returns {a : ActivityInstance} {tx : Tx} (hforeign : env.Foreign r)
    (hown : cmd.instanceId = r.inst.id)
    (h : Program.Returns (exec env) (resolveTargetActivity cmd) ⟨r, drawn⟩ a tx) :
    tx = ⟨r, drawn⟩ ∧ ∃ row, r.signalled cmd = some row ∧ a = row.intoModel r.inst.id := by
  unfold InstanceRows.signalled
  unfold resolveTargetActivity at h
  cases hid : cmd.activityId with
  | some id =>
    simp only [hid, returns_bind] at h
    obtain ⟨found, t, hload, h⟩ := h
    obtain ⟨rfl, rfl⟩ := (returns_exec rfl _).1 hload
    unfold Tx.loadActivity at h
    cases hfind : r.activities.find? (·.id == id) with
    | some row =>
      simp only [hfind] at h
      rcases (returns_ite _ _ _ _ _ _ _).1 h with ⟨-, h⟩ | ⟨-, h⟩
      · exact absurd h (returns_fail _ _ _ _ _)
      rcases (returns_ite _ _ _ _ _ _ _).1 h with ⟨-, h⟩ | ⟨hactive, h⟩
      · exact absurd h (returns_fail _ _ _ _ _)
      obtain ⟨rfl, rfl⟩ := (returns_pure _ _ _ _ _).1 h
      exact ⟨rfl, row, Option.filter_eq_some_iff.2 ⟨hfind, by simpa [ActivityRow.intoModel] using hactive⟩, rfl⟩
    | none =>
      simp only [hfind] at h
      cases hother : env.foreignActivity id with
      | none =>
        rw [hother] at h
        exact absurd h (returns_fail _ _ _ _ _)
      | some b =>
        rw [hother] at h
        rcases (returns_ite _ _ _ _ _ _ _).1 h with ⟨-, h⟩ | ⟨howner, -⟩
        · exact absurd h (returns_fail _ _ _ _ _)
        · exact absurd (by simpa [hown] using howner) (hforeign id b hother)
  | none =>
    simp only [hid, returns_bind] at h
    obtain ⟨active, t, hlist, h⟩ := h
    obtain ⟨rfl, rfl⟩ := (returns_exec rfl _).1 hlist
    unfold InstanceRows.models at h
    rcases hrows : r.activeRows with _ | ⟨one, _ | ⟨two, rest⟩⟩
    · simp only [hrows, List.map_nil] at h
      exact absurd h (returns_fail _ _ _ _ _)
    · simp only [hrows, List.map_cons, List.map_nil, returns_pure] at h
      exact ⟨h.2, one, rfl, h.1⟩
    · simp only [hrows, List.map_cons] at h
      exact absurd h (returns_fail _ _ _ _ _)

/-- A signal that is attended to goes on to find its activity. -/
theorem run_of_attended (h : Attended cmd r) :
    (svc.signal fuel cmd).run (exec env) ⟨r, drawn⟩ =
      (resolveTargetActivity cmd >>= svc.signalTo fuel cmd r.inst.status r.ctx).run (exec env) ⟨r, drawn⟩ := by
  have hload : Program.Returns (M := Uuid) (exec env) (stmt (.loadInstanceForUpdateScoped cmd.scope)) ⟨r, drawn⟩
      (some r.inst) ⟨r, drawn⟩ := by simp [exec, h.visible]
  have hseen : Program.Returns (M := Uuid) (exec env) (stmt (.idempotencySeen cmd.idempotencyKey)) ⟨r, drawn⟩
      false ⟨r, drawn⟩ := by simp [exec, h.fresh]
  have hsnapshot : Program.Returns (M := Uuid) (exec env) (stmt .loadSnapshot) ⟨r, drawn⟩ r.snapshot ⟨r, drawn⟩ := by
    simp [exec]
  rw [WorkflowService.signal, if_neg (by simp [h.keyed]), run_of_returns _ hload]
  dsimp only
  rw [run_of_returns _ hseen, if_neg Bool.false_ne_true, WorkflowService.signalFresh,
    if_neg (by simp [h.running]), run_of_returns _ hsnapshot]
  rfl

/-- Past its checks, a signal that moves the graph goes on to advance it. -/
theorem run_of_admitted (h : Admitted cmd r row node) (hadvances : cmd.advances = true) :
    (svc.signal fuel cmd).run (exec env) ⟨r, drawn⟩ =
      (svc.signalAdvance fuel cmd r.inst.status r.ctx (row.intoModel r.inst.id) node).run (exec env) ⟨r, drawn⟩ := by
  have hnode : Program.Returns (M := Uuid) (exec env) (ofExcept (r.ctx.node row.activityDefinitionId)) ⟨r, drawn⟩ node
      ⟨r, drawn⟩ := by simp [h.node_ok]
  have htakes : Program.Returns (M := Uuid) (exec env)
      (ofExcept (checkSignalAgainstNode node cmd.signal cmd.eventType)) ⟨r, drawn⟩ () ⟨r, drawn⟩ := by simp [h.takes]
  have hmoves : (cmd.signal == .claimed || cmd.signal == .reassigned) = false := by
    simpa [SignalCommand.advances] using hadvances
  rw [run_of_attended h.attended, run_of_returns _ (returns_resolveTarget h.own h.target)]
  refine (run_of_returns _ hnode).trans ((run_of_returns _ htakes).trans ?_)
  rw [hmoves]
  rfl

end

end Fusions.Hetuflow
