import Fusions.Hetuflow.Service.Service

/-! What each internal step of the service does to the rows of its instance, and the relation
`Applied` of everything `apply_outcome` can do. Later proofs use these, not the programs. -/
namespace Fusions.Hetuflow
open Fusions.Library Program

namespace InstanceRows
variable (r : InstanceRows)

/-- One event appended with the next sequence number. -/
def log (now : Time) (eventType : EventType) (payload : Json) (key : Option String) : InstanceRows :=
  r.appendEvent ⟨r.nextSeq, eventType, payload, key, now⟩

def clearCurrent : InstanceRows := r.updateInstance fun i => { i with currentActivityId := none }

/-- `update_current_activity`, which only an active instance follows. -/
def pointTo (id : Uuid) : InstanceRows :=
  if r.inst.status = .active then r.updateInstance fun i => { i with currentActivityId := some id } else r

def cancelTimersOf (id : Uuid) : InstanceRows := r.updateTimers (·.activityInstanceId == id) .cancelled

/-- `skip_other_active_activities`, both statements. -/
def skipOthers (exclude : Uuid) : InstanceRows :=
  (r.updateTimers (fun t => r.activities.any fun a =>
      a.isOtherActive exclude && a.id == t.activityInstanceId) .cancelled).updateActivities
    (ActivityRow.isOtherActive exclude) ActivityRow.skip

def finish (now : Time) (result : WorkflowResult) : InstanceRows :=
  r.updateInstance fun i =>
    { i with status := .completed, result := some result, completedAt := some now,
             currentActivityId := none }

/-- `error_workflow`, which only an active instance follows. -/
def errorOut : InstanceRows :=
  if r.inst.status = .active then r.updateInstance fun i => { i with status := .errored } else r

@[simp] theorem pointTo_activities (id : Uuid) : (r.pointTo id).activities = r.activities := by
  unfold pointTo
  split <;> rfl

@[simp] theorem errorOut_activities : r.errorOut.activities = r.activities := by
  unfold errorOut
  split <;> rfl

@[simp] theorem enqueueOutbox_activities (o : OutboxRow) : (r.enqueueOutbox o).activities = r.activities := by
  unfold enqueueOutbox
  split <;> rfl

end InstanceRows

namespace Tx

def map (tx : Tx) (f : InstanceRows → InstanceRows) : Tx := { tx with rows := f tx.rows }

@[simp] theorem map_rows (tx : Tx) (f : InstanceRows → InstanceRows) : (tx.map f).rows = f tx.rows := rfl

end Tx

section
variable {env : Env} {tx tx' : Tx}

/-- A statement that cannot fail returns its value and its effect. -/
theorem returns_exec {β : Type} {q : Stmt β} {v : β} {t : Tx} (h : exec env q tx = .ok (v, t)) (b : β) :
    Returns (exec env) (stmt q : Prog β) tx b tx' ↔ b = v ∧ tx' = t := by
  rw [returns_stmt, h, Except.ok.injEq, Prod.mk.injEq]
  exact ⟨fun ⟨h, k⟩ => ⟨h.symm, k.symm⟩, fun ⟨h, k⟩ => ⟨h.symm, k.symm⟩⟩

@[simp] theorem returns_append (t : EventType) (p : Json) (k : Option String) (u : Unit) :
    Returns (exec env) (append t p k) tx u tx' ↔ tx' = tx.map (·.log env.now t p k) := by
  rw [append, returns_bind]
  constructor
  · rintro ⟨seq, t₁, h₁, h₂⟩
    obtain ⟨rfl, rfl⟩ := (returns_exec rfl _).1 h₁
    exact ((returns_exec rfl _).1 h₂).2
  · rintro rfl
    exact ⟨_, _, (returns_exec rfl _).2 ⟨rfl, rfl⟩, (returns_exec rfl _).2 ⟨rfl, rfl⟩⟩

@[simp] theorem returns_reload (ctx : InstanceCtx) (i : WorkflowInstance) :
    Returns (exec env) (reload ctx) tx i tx' ↔ i = tx.rows.inst ∧ tx' = tx := by
  rw [reload, returns_bind]
  constructor
  · rintro ⟨i', t₁, h₁, h₂⟩
    obtain ⟨rfl, rfl⟩ := (returns_exec rfl _).1 h₁
    exact (returns_pure _ _ _ _ _).1 h₂
  · rintro ⟨rfl, rfl⟩
    exact ⟨_, _, (returns_exec rfl _).2 ⟨rfl, rfl⟩, (returns_pure _ _ _ _ _).2 ⟨rfl, rfl⟩⟩

theorem returns_pointTo {id : Uuid} {hit : Bool}
    (h : Returns (exec env) (stmt (.updateCurrentActivity id) : Prog Bool) tx hit tx') :
    tx' = tx.map (·.pointTo id) := by
  rw [((returns_exec rfl _).1 h).2]
  by_cases hs : tx.rows.inst.status = .active <;>
    simp [hs, Tx.map, InstanceRows.pointTo]

theorem returns_skipOthers (exclude : Uuid) (n : Nat) :
    Returns (exec env) (skipOtherActiveActivities exclude) tx n tx' ↔
      n = tx.rows.activities.countP (ActivityRow.isOtherActive exclude) ∧
        tx' = tx.map (·.skipOthers exclude) := by
  rw [skipOtherActiveActivities, returns_bind]
  constructor
  · rintro ⟨u, t₁, h₁, h₂⟩
    obtain ⟨-, rfl⟩ := (returns_exec rfl _).1 h₁
    exact (returns_exec rfl _).1 h₂
  · rintro ⟨rfl, rfl⟩
    exact ⟨_, _, (returns_exec rfl _).2 ⟨rfl, rfl⟩, (returns_exec rfl _).2 ⟨rfl, rfl⟩⟩

end

/-- The timers a node's activity gets, in order. -/
def nodeTimerKinds (node : WorkflowNode) : List String :=
  (if node.slaSeconds.isSome then ["reminder"] else []) ++
  (if node.escalationConfig.isSome then ["escalation"] else []) ++
  (if node.eventWait.any fun w => w.2.1.isSome then ["timeout"] else [])

/-- A timer of the kind is pending for the activity. -/
def InstanceRows.IsPending (r : InstanceRows) (id : Uuid) (kind : Int) : Prop :=
  ∃ t ∈ r.timers, t.activityInstanceId = id ∧ t.timerKind = kind ∧ t.status = .pending

/-- Timers added for one activity: pending, of kinds among `kinds`, each at most once. -/
def AddsTimers (id : Uuid) (kinds : List String) (r r' : InstanceRows) : Prop :=
  ∃ ts : List TimerRow, r' = { r with timers := r.timers ++ ts } ∧
    (∀ t ∈ ts, t.activityInstanceId = id ∧ t.status = .pending) ∧
    (ts.map TimerRow.timerKind).Sublist (kinds.map timerKindI16) ∧
    ∀ kind ∈ kinds.map timerKindI16, r'.IsPending id kind

theorem AddsTimers.trans {id : Uuid} {k₁ k₂ : List String} {r₁ r₂ r₃ : InstanceRows}
    (h₁ : AddsTimers id k₁ r₁ r₂) (h₂ : AddsTimers id k₂ r₂ r₃) : AddsTimers id (k₁ ++ k₂) r₁ r₃ := by
  obtain ⟨ts₁, rfl, h₁, s₁, p₁⟩ := h₁
  obtain ⟨ts₂, rfl, h₂, s₂, p₂⟩ := h₂
  refine ⟨ts₁ ++ ts₂, by simp, ?_, by simpa using s₁.append s₂, ?_⟩
  · intro t ht
    rcases List.mem_append.1 ht with ht | ht
    · exact h₁ t ht
    · exact h₂ t ht
  · intro kind hkind
    rw [List.map_append] at hkind
    rcases List.mem_append.1 hkind with hkind | hkind
    · obtain ⟨t, ht, hpending⟩ := p₁ kind hkind
      exact ⟨t, List.mem_append_left _ ht, hpending⟩
    · exact p₂ kind hkind

private theorem addsTimers_one {env : Env} {tx tx' : Tx} {id : Uuid} {kind : String} {u : Unit} {c : Bool}
    (h : Returns (exec env) (whenever c (stmt (.scheduleTimer id kind)) : Prog Unit) tx u tx') :
    AddsTimers id (if c then [kind] else []) tx.rows tx'.rows := by
  rcases (returns_whenever _ _ _ _ _ _).1 h with ⟨rfl, h⟩ | ⟨rfl, rfl⟩
  · rw [((returns_exec rfl _).1 h).2, if_pos rfl, Tx.scheduleTimer]
    dsimp only
    split
    · next hany =>
      obtain ⟨t, ht, hsame⟩ := List.any_eq_true.1 hany
      simp only [Bool.and_eq_true, beq_iff_eq] at hsame
      refine ⟨[], by simp, by simp, by simp, fun k hk => ?_⟩
      rw [List.map_singleton, List.mem_singleton] at hk
      exact ⟨t, ht, hsame.1.1, hsame.1.2.trans hk.symm, hsame.2⟩
    · refine ⟨[⟨env.uuid tx.drawn, id, timerKindI16 kind, .pending⟩], rfl, by simp, by simp, fun k hk => ?_⟩
      rw [List.map_singleton, List.mem_singleton] at hk
      exact ⟨_, List.mem_append_right _ (List.mem_singleton.2 rfl), rfl, hk.symm, rfl⟩
  · exact ⟨[], by simp, by simp, by simp, by simp⟩

/-- Outbox intents added for one activity. -/
def AddsOutbox (id : Uuid) (types : List String) (r r' : InstanceRows) : Prop :=
  ∃ os : List OutboxRow, r' = { r with outbox := r.outbox ++ os } ∧
    ∀ o ∈ os, o.activityInstanceId = id ∧ o.activityType ∈ types

theorem addsOutbox_enqueue (r : InstanceRows) (row : OutboxRow) :
    AddsOutbox row.activityInstanceId [row.activityType] r (r.enqueueOutbox row) := by
  unfold InstanceRows.enqueueOutbox
  split
  · exact ⟨[], by simp, by simp⟩
  · exact ⟨[row], rfl, by simp⟩

/-- What `schedule_activity` leaves: one new active row, its event, its timers, its intent. -/
structure Scheduled (env : Env) (tenantId : Int) (node : WorkflowNode) (role : Option String)
    (round : Int) (fanout : Option FanoutMark) (r : InstanceRows) (row : ActivityRow)
    (r' : InstanceRows) : Prop where
  notSub : node.kind ≠ .subWorkflow
  row_eq : row = .new row.id tenantId node.id (instantiatedActivityType node.kind) role round
  fresh : ∀ a ∈ r.activities, a.id ≠ row.id
  id_ne_nil : row.id ≠ Uuid.nil
  not_foreign : env.foreignActivity row.id = none
  inst : r'.inst = r.inst
  snapshot : r'.snapshot = r.snapshot
  activities : r'.activities = r.activities ++ [row]
  events : r'.events = r.events ++ [⟨r.nextSeq, .activityScheduled,
    WorkflowService.scheduledPayload (row.intoModel r.inst.id) node role round fanout, none, env.now⟩]
  timers : ∃ ts : List TimerRow, r'.timers = r.timers ++ ts ∧
    (∀ t ∈ ts, t.activityInstanceId = row.id ∧ t.status = .pending) ∧
    (ts.map TimerRow.timerKind).Sublist ((nodeTimerKinds node).map timerKindI16)
  armed : ∀ kind ∈ (nodeTimerKinds node).map timerKindI16, r'.IsPending row.id kind
  outbox : ∃ os : List OutboxRow, r'.outbox = r.outbox ++ os ∧
    ∀ o ∈ os, o.activityInstanceId = row.id ∧ o.activityType = "notification"

private theorem scheduleTimers_adds {env : Env} {tx tx' : Tx} {node : WorkflowNode}
    {activity : ActivityInstance} {u : Unit}
    (h : Returns (exec env) (WorkflowService.scheduleTimers node activity) tx u tx') :
    AddsTimers activity.id (nodeTimerKinds node) tx.rows tx'.rows := by
  simp only [WorkflowService.scheduleTimers, returns_bind] at h
  obtain ⟨_, t₁, h₁, _, t₂, h₂, h₃⟩ := h
  exact ((addsTimers_one h₁).trans (addsTimers_one h₂)).trans (addsTimers_one h₃)

private theorem enqueueDelivery_adds {svc : WorkflowService} {env : Env} {ctx : InstanceCtx}
    {tx tx' : Tx} {node : WorkflowNode} {activity : ActivityInstance} {u : Unit}
    (h : Returns (exec env) (svc.enqueueDelivery ctx node activity) tx u tx') :
    AddsOutbox activity.id ["notification"] tx.rows tx'.rows := by
  unfold WorkflowService.enqueueDelivery at h
  split at h
  · rw [((returns_exec rfl _).1 h).2]
    exact addsOutbox_enqueue tx.rows _
  · simp only [returns_pure] at h
    rw [h.2]
    exact ⟨[], by simp, by simp⟩

/-- `schedule_activity` returns the model of the row it leaves. -/
theorem returns_scheduleActivity {svc : WorkflowService} {env : Env} {ctx : InstanceCtx}
    {node : WorkflowNode} {role : Option String} {round : Int} {fanout : Option FanoutMark}
    {tx tx' : Tx} {a : ActivityInstance}
    (h : Returns (exec env) (svc.scheduleActivity ctx node role round fanout) tx a tx') :
    ∃ row, a = row.intoModel tx.rows.inst.id ∧
      Scheduled env ctx.tenantId node role round fanout tx.rows row tx'.rows := by
  unfold WorkflowService.scheduleActivity at h
  by_cases hk : node.kind = .subWorkflow
  · simp [hk] at h
  simp only [beq_iff_eq, hk, ↓reduceIte, returns_bind, returns_append] at h
  obtain ⟨b, t₁, hins, _, t₂, rfl, _, t₃, htim, _, t₄, hout, hret⟩ := h
  obtain ⟨rfl, rfl⟩ := (returns_pure _ _ _ _ _).1 hret
  rw [returns_stmt, exec, Tx.insertActivity] at hins
  split at hins
  · cases hins
  next hfree =>
    cases hins
    simp only [Tx.activityIdTaken, Bool.not_eq_true, Bool.or_eq_false_iff, List.any_eq_false, beq_iff_eq,
      Option.isSome_eq_false_iff, Option.isNone_iff_eq_none] at hfree
    obtain ⟨ts, hts, hkinds, hsub, hpending⟩ := scheduleTimers_adds htim
    obtain ⟨os, hos, hall⟩ := enqueueDelivery_adds hout
    have htx : tx'.rows = _ := hos.trans (by rw [hts])
    refine ⟨_, rfl, ⟨hk, rfl, hfree.1, env.uuid_ne_nil _, hfree.2, ?_, ?_, ?_, ?_, ?_, ?_, ?_⟩⟩
    · rw [htx]; rfl
    · rw [htx]; rfl
    · rw [htx]; rfl
    · rw [htx]; rfl
    · exact ⟨ts, by rw [htx]; rfl, hkinds, hsub⟩
    · intro kind hkind
      obtain ⟨t, ht, hrest⟩ := hpending kind hkind
      refine ⟨t, ?_, hrest⟩
      rw [hos]
      exact ht
    · exact ⟨os, by rw [htx]; rfl, fun o ho => ⟨(hall o ho).1, List.mem_singleton.1 (hall o ho).2⟩⟩

end Fusions.Hetuflow
