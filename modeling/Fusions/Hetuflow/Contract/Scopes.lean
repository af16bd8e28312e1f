import Fusions.Hetuflow.Contract.Joins
import Fusions.Hetuflow.Contract.Tenants
import Fusions.Hetuflow.Contract.ContextWrites
import Fusions.Hetuflow.Service.Sources

/-! Signals in two stores that hold the same visible rows: what an invisible row decides about their result. -/
namespace Fusions.Hetuflow
open Fusions.Library Program

/-- `signal` on a store: beside the instance that it names there are the others, and an instance that is not there is
not found, as one that is not visible. -/
def WorkflowService.signalIn (svc : WorkflowService) (fuel : Nat) (supply : Supply) (store : Store)
    (cmd : SignalCommand) : Outcome FlowError SignalOutcome :=
  match store.find? fun r => r.inst.id == cmd.instanceId with
  | none =>
    if isBlank cmd.idempotencyKey then .error (.validation "idempotency_key is required")
    else .error (.notFound s!"workflow instance {cmd.instanceId} not visible")
  | some r =>
    let others := store.filter fun x => x.inst.id != cmd.instanceId
    ((svc.signal fuel cmd).run (exec (Store.env others supply r.inst)) ⟨r, 0⟩).value

/-- Errors of one variant. -/
def FlowError.SameVariant : FlowError → FlowError → Prop
  | .validation _, .validation _ => True
  | .notFound _, .notFound _ => True
  | .conflict _, .conflict _ => True
  | .storage _, .storage _ => True
  | .serialization _, .serialization _ => True
  | .invalidState _, .invalidState _ => True
  | _, _ => False

/-- The same value, or errors of one variant. -/
def SameResult : Outcome FlowError SignalOutcome → Outcome FlowError SignalOutcome → Prop
  | .ok a, .ok b => a = b
  | .error e, .error e' => e.SameVariant e'
  | .diverge, .diverge => True
  | _, _ => False

namespace Store

/-- The stores hold the same rows of the instances that are visible in the scope. -/
def AgreeIn (scope : ScopeFilter) (store₁ store₂ : Store) : Prop :=
  ∀ r, scope.sees r.inst = true → (r ∈ store₁ ↔ r ∈ store₂)

/-- An activity of the store has this id. -/
def HasActivity (store : Store) (id : Uuid) : Prop := ∃ x ∈ store, ∃ a ∈ x.activities, a.id = id

/-- Beside the instance, another one of its business object is in the unique index. -/
def OpenBeside (store : Store) (r : InstanceRows) : Prop :=
  ∃ x ∈ store, x.inst.id ≠ r.inst.id ∧ x.isOpenFor r.inst.businessKey r.inst.businessType = true

end Store

/-- The signal is attended to, and names an activity that its instance does not have. -/
def NamesForeign (cmd : SignalCommand) (r : InstanceRows) (id : Uuid) : Prop :=
  Attended cmd r ∧ cmd.activityId = some id ∧ ∀ a ∈ r.activities, a.id ≠ id

/-- The signal gets as far as to bring back its instance, which waits for a rework. -/
def Resumes (cmd : SignalCommand) (r : InstanceRows) : Prop :=
  r.inst.status = .returnedWaiting ∧ ∃ row node, Admitted cmd r row node ∧ cmd.advances = true ∧
    (node.contextWrites = [] ∨ Provides cmd.contextPatch node.contextWrites)

/-- What the signal asks the store about beyond the visible rows has the same answer in both stores. -/
structure AsksAlike (cmd : SignalCommand) (store₁ store₂ : Store) (r : InstanceRows) : Prop where
  named : ∀ id, NamesForeign cmd r id → (store₁.HasActivity id ↔ store₂.HasActivity id)
  resumed : Resumes cmd r → (store₁.OpenBeside r ↔ store₂.OpenBeside r)

theorem SameResult.refl (o : Outcome FlowError SignalOutcome) : SameResult o o := by
  cases o with
  | ok a => rfl
  | error e => cases e <;> trivial
  | diverge => trivial

/-! Two environments of one supply. -/

section
variable {o₁ o₂ : Store} {supply : Supply} {i : WorkflowInstance}

/-- The generated ids are not taken by other instances. -/
def Store.Leaves (others : Store) (supply : Supply) : Prop := ∀ n, others.findActivity (supply.uuid n) = none

theorem exec_eq (h₁ : o₁.Leaves supply) (h₂ : o₂.Leaves supply) {β : Type} {q : Stmt β} (hq : q.isOwn = true) (tx : Tx) :
    exec (Store.env o₁ supply i) q tx = exec (Store.env o₂ supply i) q tx := by
  cases q with
  | loadActivity | resumeFromReturnedWaiting | reactivateWorkflow => cases hq
  | insertActivity tenantId nodeId activityType role round =>
    have hnone₁ : (Store.env o₁ supply i).foreignActivity ((Store.env o₁ supply i).uuid tx.drawn) = none := h₁ tx.drawn
    have hnone₂ : (Store.env o₂ supply i).foreignActivity ((Store.env o₂ supply i).uuid tx.drawn) = none := h₂ tx.drawn
    simp only [exec, Tx.insertActivity, Tx.activityIdTaken, hnone₁, hnone₂]
    rfl
  | _ => rfl

/-- Programs that run alike beside the ones and beside the others. -/
def RunsAlike (o₁ o₂ : Store) (supply : Supply) (i : WorkflowInstance) (γ : Type) (p : Prog γ) : Prop :=
  ∀ tx, p.run (exec (Store.env o₁ supply i)) tx = p.run (exec (Store.env o₂ supply i)) tx

theorem runsAlike_stmt (h₁ : o₁.Leaves supply) (h₂ : o₂.Leaves supply) {β : Type} {q : Stmt β} (hq : q.isOwn = true) :
    RunsAlike o₁ o₂ supply i β (stmt q) := by
  intro tx
  simp only [stmt, run, exec_eq h₁ h₂ hq]

theorem runsAlike_bind {α β : Type} {p : Prog α} {f : α → Prog β} (hp : RunsAlike o₁ o₂ supply i α p)
    (hf : ∀ a, RunsAlike o₁ o₂ supply i β (f a)) : RunsAlike o₁ o₂ supply i β (p >>= f) :=
  fun tx => run_bind_congr (hp tx) fun a t _ => hf a t

theorem runsAlike_append {t : EventType} {payload : Json} {key : Option String} :
    RunsAlike o₁ o₂ supply i Unit (append t payload key) := fun _ => rfl

theorem runsAlike_ofExcept {α : Type} (x : Except FlowError α) : RunsAlike o₁ o₂ supply i α (ofExcept x) := by
  intro tx
  cases x <;> rfl

theorem holdsOwn_runsAlike (h₁ : o₁.Leaves supply) (h₂ : o₂.Leaves supply) : HoldsOwn (RunsAlike o₁ o₂ supply i) where
  stmt hq _ := runsAlike_stmt h₁ h₂ hq
  event _ := runsAlike_append
  fanOut := runsAlike_append

theorem runsAlike_applyContextWrites (h₁ : o₁.Leaves supply) (h₂ : o₂.Leaves supply) {ctx : InstanceCtx}
    {node : WorkflowNode} {round : Int} {patch : Option Json} :
    RunsAlike o₁ o₂ supply i InstanceCtx (applyContextWrites ctx node round patch) := by
  unfold applyContextWrites
  split
  · exact fun _ => rfl
  · split
    · exact runsAlike_bind (runsAlike_ofExcept _) fun _ => runsAlike_bind (runsAlike_stmt h₁ h₂ rfl) fun _ =>
        runsAlike_bind runsAlike_append fun _ _ => rfl
    · exact fun _ => rfl

theorem runsAlike_completeActivity (h₁ : o₁.Leaves supply) (h₂ : o₂.Leaves supply) {a : ActivityInstance}
    {result : Option String} {actor : Int} {notes : Option String} :
    RunsAlike o₁ o₂ supply i Unit (completeActivity a result actor notes) := by
  refine runsAlike_bind (runsAlike_stmt h₁ h₂ rfl) fun hit => ?_
  cases hit with
  | false => exact fun _ => rfl
  | true => exact runsAlike_bind (runsAlike_stmt h₁ h₂ rfl) fun _ => runsAlike_append

theorem runsAlike_applyOutcome (h₁ : o₁.Leaves supply) (h₂ : o₂.Leaves supply) {svc : WorkflowService}
    {ctx : InstanceCtx} {source : ActivityInstance} {round : Int} {fuel : Nat} {outcome : AdvanceOutcome}
    {trace : ResolveTrace} :
    RunsAlike o₁ o₂ supply i Unit (svc.applyOutcome ctx source round fuel outcome trace) := by
  have hassembled : (svc.applyOutcome ctx source round fuel outcome trace).AssembledFrom (RunsAlike o₁ o₂ supply i)
      (fun _ => True) fun _ => True :=
    WorkflowService.assembled_applyOutcome (holdsOwn_runsAlike h₁ h₂) (fun _ _ => trivial) trivial
  exact hassembled.run_eq fun _ hq => hq

end

section
variable {svc : WorkflowService} {o₁ o₂ : Store} {supply : Supply} {fuel : Nat} {cmd : SignalCommand} {r : InstanceRows}
  {row : ActivityRow} {node : WorkflowNode}

/-- What is written back without an error was provided. -/
theorem ContextWritten.provides {env : Env} {round : Int} {patch : Option Json} {ctx ctx' : InstanceCtx}
    {r' : InstanceRows} (h : ContextWritten env node round patch ctx r ctx' r') :
    node.contextWrites = [] ∨ Provides patch node.contextWrites := by
  cases h with
  | none hempty => exact .inl hempty
  | @merged fields filtered _ _ hpatch hfilter _ =>
    exact .inr ⟨fields, hpatch, filterPatch_ok_iff.1 ⟨filtered, hfilter⟩⟩

/-- A signal that advances runs alike where its resume does. -/
theorem signalAdvance_eq (h₁ : o₁.Leaves supply) (h₂ : o₂.Leaves supply)
    (hopen : r.inst.status = .returnedWaiting →
      node.contextWrites = [] ∨ Provides cmd.contextPatch node.contextWrites →
      (Store.env o₁ supply r.inst).openElsewhere = (Store.env o₂ supply r.inst).openElsewhere) :
    (svc.signalAdvance fuel cmd r.inst.status r.ctx (row.intoModel r.inst.id) node).run
        (exec (Store.env o₁ supply r.inst)) ⟨r, 0⟩ =
      (svc.signalAdvance fuel cmd r.inst.status r.ctx (row.intoModel r.inst.id) node).run
        (exec (Store.env o₂ supply r.inst)) ⟨r, 0⟩ := by
  unfold WorkflowService.signalAdvance
  refine run_bind_congr (runsAlike_applyContextWrites h₁ h₂ _) fun ctx t hctx => ?_
  have hprovided := (contextWritten_of_returns hctx).provides
  refine run_bind_congr (runsAlike_append _) fun _ t _ => ?_
  refine run_bind_congr (runsAlike_completeActivity h₁ h₂ _) fun _ t _ => ?_
  refine run_bind_congr ?_ fun _ t _ => ?_
  · unfold resumeIfWaiting
    split
    · next hwaiting =>
      have hsame := hopen (by simpa using hwaiting) hprovided
      refine run_bind_congr ?_ fun hit t _ => ?_
      · simp only [stmt, run, exec, Tx.reopen, hsame]
      · cases hit with
        | false => rfl
        | true => exact runsAlike_append t
    · rfl
  · exact run_bind_congr (runsAlike_applyOutcome h₁ h₂ _) fun _ t _ => rfl

/-- Past its activity, a signal runs alike where its resume does. -/
theorem signalTo_eq (h₁ : o₁.Leaves supply) (h₂ : o₂.Leaves supply) (hattended : Attended cmd r)
    (hown : cmd.instanceId = r.inst.id) (htarget : r.signalled cmd = some row)
    (hopen : Resumes cmd r →
      (Store.env o₁ supply r.inst).openElsewhere = (Store.env o₂ supply r.inst).openElsewhere) :
    (svc.signalTo fuel cmd r.inst.status r.ctx (row.intoModel r.inst.id)).run
        (exec (Store.env o₁ supply r.inst)) ⟨r, 0⟩ =
      (svc.signalTo fuel cmd r.inst.status r.ctx (row.intoModel r.inst.id)).run
        (exec (Store.env o₂ supply r.inst)) ⟨r, 0⟩ := by
  refine run_bind_congr (runsAlike_ofExcept _ _) fun node t hfound => ?_
  obtain ⟨hnode, rfl⟩ := (returns_ofExcept _ _ _ _ _).1 hfound
  refine run_bind_congr (runsAlike_ofExcept _ _) fun _ t hchecked => ?_
  obtain ⟨htakes, rfl⟩ := (returns_ofExcept _ _ _ _ _).1 hchecked
  split
  · rfl
  · next hmoves =>
    refine signalAdvance_eq h₁ h₂ fun hwaiting hprovided => hopen ⟨hwaiting, row, node, ?_, ?_, hprovided⟩
    · exact ⟨hown, hattended.keyed, hattended.visible, hattended.fresh, hattended.running, htarget, hnode, htakes⟩
    · simpa [SignalCommand.advances] using hmoves

theorem findActivity_isSome_iff {others : Store} {id : Uuid} :
    (others.findActivity id).isSome = true ↔ others.HasActivity id := by
  constructor
  · intro h
    obtain ⟨a, ha⟩ := Option.isSome_iff_exists.1 h
    obtain ⟨x, hx, row, hrow, hid, -⟩ := Store.owner_of_findActivity ha
    exact ⟨x, hx, row, hrow, hid⟩
  · rintro ⟨x, hx, a, ha, hid⟩
    have hfound : (x.activities.find? (·.id == id)).isSome = true :=
      List.find?_isSome.2 ⟨a, ha, by simpa using hid⟩
    exact List.findSome?_isSome_iff.2 ⟨x, hx, by simpa using hfound⟩

/-- The activities beside an instance belong to others. -/
theorem foreign_of_ids (hids : ∀ x ∈ o₁, x.inst.id ≠ r.inst.id) : (Store.env o₁ supply r.inst).Foreign r := by
  intro id a ha
  obtain ⟨x, hx, row, -, -, rfl⟩ := Store.owner_of_findActivity ha
  exact hids x hx

/-- A named activity that the instance does not have is refused: as one of another instance, or as not found. -/
theorem run_resolve_foreign {env : Env} {id : Uuid} (hforeign : env.Foreign r) (hinstance : cmd.instanceId = r.inst.id)
    (hid : cmd.activityId = some id) (hnone : ∀ a ∈ r.activities, a.id ≠ id) :
    (resolveTargetActivity cmd).run (exec env) ⟨r, 0⟩ = .error
      (if (env.foreignActivity id).isSome then
        .validation s!"activity {id} does not belong to instance {cmd.instanceId}"
      else .notFound s!"activity {id} not found") := by
  have hfind : r.activities.find? (·.id == id) = none :=
    List.find?_eq_none.2 fun a ha => by simpa using hnone a ha
  have hload : Program.Returns (M := Uuid) (exec env) (stmt (.loadActivity id)) ⟨r, 0⟩ (env.foreignActivity id)
      ⟨r, 0⟩ := by simp [exec, Tx.loadActivity, hfind]
  unfold resolveTargetActivity
  rw [hid]
  refine (run_of_returns _ hload).trans ?_
  cases hother : env.foreignActivity id with
  | none => rfl
  | some a =>
    have howner : (a.workflowInstanceId != cmd.instanceId) = true := by
      simpa [hinstance] using hforeign id a hother
    dsimp only
    rw [if_pos howner]
    rfl

theorem resolve_eq (hids₁ : ∀ x ∈ o₁, x.inst.id ≠ r.inst.id) (hids₂ : ∀ x ∈ o₂, x.inst.id ≠ r.inst.id)
    (hinstance : cmd.instanceId = r.inst.id) (hattended : Attended cmd r)
    (hnamed : ∀ id, NamesForeign cmd r id → (o₁.HasActivity id ↔ o₂.HasActivity id)) :
    (resolveTargetActivity cmd).run (exec (Store.env o₁ supply r.inst)) ⟨r, 0⟩ =
      (resolveTargetActivity cmd).run (exec (Store.env o₂ supply r.inst)) ⟨r, 0⟩ := by
  cases hid : cmd.activityId with
  | none =>
    unfold resolveTargetActivity
    rw [hid]
    refine run_bind_congr rfl fun active t _ => ?_
    rcases active with _ | ⟨one, _ | _⟩ <;> rfl
  | some id =>
    by_cases hhas : ∃ a ∈ r.activities, a.id = id
    · obtain ⟨a, ha, haid⟩ := hhas
      have hfound : (r.activities.find? (·.id == id)).isSome = true := List.find?_isSome.2 ⟨a, ha, by simpa using haid⟩
      obtain ⟨row, hrow⟩ := Option.isSome_iff_exists.1 hfound
      unfold resolveTargetActivity
      rw [hid]
      refine run_bind_congr ?_ fun found t _ => ?_
      · simp only [stmt, run, exec, Tx.loadActivity, hrow]
      · cases found with
        | none => rfl
        | some a =>
          dsimp only
          split
          · rfl
          · split <;> rfl
    · have hnone : ∀ a ∈ r.activities, a.id ≠ id := fun a ha haid => hhas ⟨a, ha, haid⟩
      have hsame : (o₁.findActivity id).isSome = (o₂.findActivity id).isSome := by
        rw [Bool.eq_iff_iff, findActivity_isSome_iff, findActivity_isSome_iff]
        exact hnamed id ⟨hattended, hid, hnone⟩
      rw [run_resolve_foreign (foreign_of_ids hids₁) hinstance hid hnone,
        run_resolve_foreign (foreign_of_ids hids₂) hinstance hid hnone]
      change Outcome.error (if (o₁.findActivity id).isSome then _ else _) =
        Outcome.error (if (o₂.findActivity id).isSome then _ else _)
      rw [hsame]

/-- A signal that is not attended to asks about its instance only. -/
theorem signal_eq_of_not_attended (h : ¬ Attended cmd r) :
    (svc.signal fuel cmd).run (exec (Store.env o₁ supply r.inst)) ⟨r, 0⟩ =
      (svc.signal fuel cmd).run (exec (Store.env o₂ supply r.inst)) ⟨r, 0⟩ := by
  unfold WorkflowService.signal
  split
  · rfl
  next hkeyed =>
  refine run_bind_congr rfl fun found t hload => ?_
  obtain ⟨rfl, rfl⟩ := (returns_exec rfl _).1 hload
  by_cases hsees : cmd.scope.sees r.inst = true
  · rw [if_pos hsees]
    refine run_bind_congr rfl fun seen t hseen => ?_
    obtain ⟨rfl, rfl⟩ := (returns_exec rfl _).1 hseen
    split
    · rfl
    next hfresh =>
    unfold WorkflowService.signalFresh
    split
    · rfl
    next hrunning =>
    exact absurd ⟨by simpa using hkeyed, hsees, Bool.eq_false_iff.2 hfresh, Bool.eq_false_iff.2 hrunning⟩ h
  · rw [if_neg hsees]
    rfl

/-- A signal that finds the same answers beyond its instance runs alike. -/
theorem signal_eq (h₁ : o₁.Leaves supply) (h₂ : o₂.Leaves supply) (hids₁ : ∀ x ∈ o₁, x.inst.id ≠ r.inst.id)
    (hids₂ : ∀ x ∈ o₂, x.inst.id ≠ r.inst.id) (hinstance : cmd.instanceId = r.inst.id)
    (hnamed : ∀ id, NamesForeign cmd r id → (o₁.HasActivity id ↔ o₂.HasActivity id))
    (hopen : Resumes cmd r →
      (Store.env o₁ supply r.inst).openElsewhere = (Store.env o₂ supply r.inst).openElsewhere) :
    (svc.signal fuel cmd).run (exec (Store.env o₁ supply r.inst)) ⟨r, 0⟩ =
      (svc.signal fuel cmd).run (exec (Store.env o₂ supply r.inst)) ⟨r, 0⟩ := by
  by_cases hattended : Attended cmd r
  · rw [run_of_attended hattended, run_of_attended hattended]
    refine run_bind_congr (resolve_eq hids₁ hids₂ hinstance hattended hnamed) fun a t hfound => ?_
    obtain ⟨rfl, row, htarget, rfl⟩ := signalled_of_returns (foreign_of_ids hids₁) hinstance hfound
    exact signalTo_eq h₁ h₂ hattended hinstance htarget hopen
  · exact signal_eq_of_not_attended hattended

end

/-! Where the generated ids are new, the recorded fan-outs are counted and no other instance of the business object is
open, no statement fails. -/

/-- The ids still to be drawn are not taken, and the log counts the branches of every for-each. -/
structure Sound (env : Env) (tx : Tx) : Prop where
  fresh : ∀ a ∈ tx.rows.activities, ∀ n, tx.drawn ≤ n → a.id ≠ env.uuid n
  counted : ∀ e ∈ tx.rows.events, e.eventType = .forEachFannedOut → (e.int "branch_count").isSome = true

namespace Sound
variable {env : Env} {tx tx' : Tx}

theorem keeps (h : Sound env tx) (hids : ∀ a ∈ tx'.rows.activities, ∃ b ∈ tx.rows.activities, b.id = a.id)
    (hevents : tx'.rows.events = tx.rows.events) (hdrawn : tx.drawn ≤ tx'.drawn) : Sound env tx' where
  fresh a ha n hn := by
    obtain ⟨b, hb, hid⟩ := hids a ha
    rw [← hid]
    exact h.fresh b hb n (Nat.le_trans hdrawn hn)
  counted e he := h.counted e (by rwa [hevents] at he)

/-- A change of the rows other than activities and events. -/
theorem frame (h : Sound env tx) (hactivities : tx'.rows.activities = tx.rows.activities)
    (hevents : tx'.rows.events = tx.rows.events) (hdrawn : tx.drawn ≤ tx'.drawn) : Sound env tx' :=
  h.keeps (fun a ha => ⟨a, by rwa [hactivities] at ha, rfl⟩) hevents hdrawn

theorem casInstance (h : Sound env tx) (guard : WorkflowInstance → Bool) (f : WorkflowInstance → WorkflowInstance) :
    Sound env (tx.casInstance guard f).2 := by
  unfold Tx.casInstance
  dsimp only
  split
  · exact h.frame rfl rfl (Nat.le_refl _)
  · exact h

theorem updateActivities (h : Sound env tx) (guard : ActivityRow → Bool) {f : ActivityRow → ActivityRow}
    (hf : ∀ a, (f a).id = a.id) : Sound env { tx with rows := tx.rows.updateActivities guard f } := by
  refine h.keeps (fun a ha => ?_) rfl (Nat.le_refl _)
  obtain ⟨b, hb, rfl⟩ := List.mem_map.1 ha
  refine ⟨b, hb, ?_⟩
  split
  · exact (hf b).symm
  · rfl

theorem insertActivity (h : Sound env tx) (hdistinct : Function.Injective env.uuid)
    (hunused : ∀ n, env.foreignActivity (env.uuid n) = none) (tenantId : Int) (nodeId : String)
    (activityType : ActivityType) (role : Option String) (round : Int) :
    ∃ a tx', tx.insertActivity env tenantId nodeId activityType role round = .ok (a, tx') ∧ Sound env tx' := by
  have hfree : tx.activityIdTaken env (env.uuid tx.drawn) = false := by
    have hown : tx.rows.activities.any (·.id == env.uuid tx.drawn) = false :=
      List.any_eq_false.2 fun a ha => by simpa using h.fresh a ha tx.drawn (Nat.le_refl _)
    simp [Tx.activityIdTaken, hown, hunused]
  unfold Tx.insertActivity
  dsimp only
  rw [hfree, if_neg Bool.false_ne_true]
  refine ⟨_, _, rfl, ?_, h.counted⟩
  intro a ha n hn
  have hlater : tx.drawn + 1 ≤ n := hn
  rcases List.mem_append.1 ha with ha | ha
  · exact h.fresh a ha n (by omega)
  · obtain rfl := List.mem_singleton.1 ha
    intro heq
    have hn : tx.drawn = n := hdistinct heq
    omega

theorem scheduleTimer (h : Sound env tx) (id : Uuid) (kind : String) : Sound env (tx.scheduleTimer env id kind) := by
  unfold Tx.scheduleTimer
  dsimp only
  split
  · exact h
  · exact h.frame rfl rfl (by simp)

/-- The count of a fan-out is read back. -/
theorem forEachBranchCount (h : Sound env tx) (join : String) (round : Int) :
    ∃ n, tx.rows.forEachBranchCount join round = .ok n := by
  unfold InstanceRows.forEachBranchCount
  split
  · exact ⟨_, rfl⟩
  · next e he =>
    have htype : e.eventType = .forEachFannedOut := by
      have hinto := List.find?_some he
      simp only [InstanceRows.isFanOutInto, Bool.and_eq_true, beq_iff_eq] at hinto
      exact hinto.1.1
    have hcount := h.counted e (List.mem_reverse.1 (List.mem_of_find?_eq_some he)) htype
    obtain ⟨n, hn⟩ := Option.isSome_iff_exists.1 hcount
    rw [show (e.payload.get "branch_count").bind Json.asI64 = some n from hn]
    exact ⟨_, rfl⟩

theorem log (h : Sound env tx) {t : EventType} {payload : Json} {key : Option String}
    (hcounted : t = .forEachFannedOut → ((payload.get "branch_count").bind Json.asI64).isSome = true) :
    Sound env (tx.map (·.log env.now t payload key)) where
  fresh := h.fresh
  counted e he ht := by
    rcases List.mem_append.1 he with he | he
    · exact h.counted e he ht
    · obtain rfl := List.mem_singleton.1 he
      exact hcounted ht

/-- No plain statement fails. -/
theorem exec (h : Sound env tx) (hdistinct : Function.Injective env.uuid)
    (hunused : ∀ n, env.foreignActivity (env.uuid n) = none) (hclosed : env.openElsewhere = false) {β : Type}
    {q : Stmt β} (hq : q.isPlain = true) : ∃ x, Hetuflow.exec env q tx = .ok x ∧ Sound env x.2 := by
  cases q with
  | appendEvent | completeActivityCas => cases hq
  | completeWorkflowCas | errorWorkflow | updateCurrentActivity | enterReturnedWaiting | markSideEffectsExecuted =>
    exact ⟨_, rfl, h.casInstance _ _⟩
  | reactivateWorkflow | resumeFromReturnedWaiting =>
    simp only [Hetuflow.exec, Tx.reopen, hclosed, Bool.and_false, Bool.false_eq_true, if_false]
    exact ⟨_, rfl, h.casInstance _ _⟩
  | skipActivityForTimeout | skipOtherActiveActivities | updateActivityAssigneeRole | updateActivityAssignee =>
    exact ⟨_, rfl, h.updateActivities _ fun _ => rfl⟩
  | insertActivity tenantId nodeId activityType role round =>
    obtain ⟨a, tx', hinsert, hsound⟩ := h.insertActivity hdistinct hunused tenantId nodeId activityType role round
    exact ⟨(a, tx'), hinsert, hsound⟩
  | scheduleTimer id kind => exact ⟨_, rfl, h.scheduleTimer id kind⟩
  | forEachBranchCount join round =>
    obtain ⟨n, hn⟩ := h.forEachBranchCount join round
    exact ⟨(n, tx), by simp only [Hetuflow.exec, hn], h⟩
  | enqueueOutbox row =>
    refine ⟨_, rfl, h.frame (InstanceRows.enqueueOutbox_activities ..) ?_ (Nat.le_refl _)⟩
    change (tx.rows.enqueueOutbox row).events = _
    unfold InstanceRows.enqueueOutbox
    split <;> rfl
  | clearCurrentActivity | mergeInstanceContext | cancelTimersOfOthers | cancelTimersForActivity | markTimerFired =>
    exact ⟨_, rfl, h.frame rfl rfl (Nat.le_refl _)⟩
  | _ => exact ⟨_, rfl, h⟩

end Sound

/-- An environment in which no statement fails of itself. -/
structure Env.Clear (env : Env) : Prop where
  distinct : Function.Injective env.uuid
  unused : ∀ n, env.foreignActivity (env.uuid n) = none
  closed : env.openElsewhere = false

/-- Programs that keep what is sound, and do not fail in the storage. -/
def KeepsSound (env : Env) (γ : Type) (p : Prog γ) : Prop :=
  ∀ tx, Sound env tx → (p.run (exec env) tx).Within (Sound env) fun e => e.isStorage = false

section
variable {svc : WorkflowService} {env : Env} {fuel : Nat} {cmd : SignalCommand} {r : InstanceRows} {row : ActivityRow}
  {node : WorkflowNode} {tx : Tx}

theorem keepsSound_stmt (hclear : env.Clear) {β : Type} {q : Stmt β} (hq : q.isPlain = true) :
    KeepsSound env β (stmt q) := by
  intro tx htx
  obtain ⟨x, hx, hsound⟩ := htx.exec hclear.distinct hclear.unused hclear.closed hq
  simp only [stmt, run, hx]
  exact hsound

theorem keepsSound_append {t : EventType} {payload : Json} {key : Option String}
    (hcounted : t = .forEachFannedOut → ((payload.get "branch_count").bind Json.asI64).isSome = true) :
    KeepsSound env Unit (append t payload key) := by
  intro tx htx
  have hreturns : Program.Returns (exec env) (append t payload key) tx () (tx.map (·.log env.now t payload key)) :=
    (returns_append t payload key ()).2 rfl
  rw [show (append t payload key).run (exec env) tx = _ from hreturns]
  exact htx.log hcounted

theorem holdsOwn_keepsSound (hclear : env.Clear) : HoldsOwn (KeepsSound env) where
  stmt _ hplain := keepsSound_stmt hclear hplain
  event ht := keepsSound_append fun h => absurd h ht
  fanOut := keepsSound_append fun _ => rfl

theorem filterPatch_error {nodeId : String} {patch : Json} {declared : List String} {e : FlowError}
    (h : filterPatch nodeId patch declared = .error e) : e.isStorage = false := by
  induction declared with
  | nil => cases h
  | cons key keys ih =>
    unfold filterPatch at h
    split at h
    · obtain rfl := Except.error.inj h
      rfl
    · split at h
      · cases h
      · next hrest =>
        obtain rfl := Except.error.inj h
        exact ih hrest

/-- Where no other instance of the business object is open, a signal that advances does not fail in the storage. -/
theorem run_signalAdvance_within (hclear : env.Clear) (htx : Sound env tx) {status : WorkflowStatus}
    {ctx : InstanceCtx} {a : ActivityInstance} :
    ((svc.signalAdvance fuel cmd status ctx a node).run (exec env) tx).Within (Sound env)
      fun e => e.isStorage = false := by
  have hstmt : ∀ {β : Type} {q : Stmt β}, q.isPlain = true →
      (stmt q : Prog β).AssembledFrom (KeepsSound env) (fun _ => True) fun e => e.isStorage = false :=
    fun hq => .block (keepsSound_stmt hclear hq)
  have hevent : ∀ {t : EventType} {payload : Json} {key : Option String}, t ≠ .forEachFannedOut →
      (append t payload key).AssembledFrom (KeepsSound env) (fun _ => True) fun e => e.isStorage = false :=
    fun ht => .block (keepsSound_append fun h => absurd h ht)
  have hwrites : (applyContextWrites ctx node a.round cmd.contextPatch).AssembledFrom (KeepsSound env)
      (fun _ => True) fun e => e.isStorage = false := by
    unfold applyContextWrites
    refine .ite (.pure _) ?_
    split
    · exact .bind (.ofExcept fun _ he => filterPatch_error he) fun _ => .bind (hstmt rfl) fun _ =>
        .bind (hevent nofun) fun _ => .pure _
    · exact .fail rfl
  have hcompletes : (completeActivity a (signalResult cmd.signal) cmd.actorUserId cmd.reviewNotes).AssembledFrom
      (KeepsSound env) (fun _ => True) fun e => e.isStorage = false := by
    refine .bind (.block fun tx htx => ?_) fun _ =>
      .ite (.bind (hstmt rfl) fun _ => hevent nofun) (.fail rfl)
    exact htx.updateActivities _ fun _ => rfl
  have hresumes : (resumeIfWaiting status a).AssembledFrom (KeepsSound env) (fun _ => True)
      fun e => e.isStorage = false :=
    .ite (.bind (hstmt rfl) fun _ => .ite (hevent nofun) (.pure _)) (.pure _)
  have hreload : ∀ ctx, (reload ctx).AssembledFrom (KeepsSound env) (fun _ => True) fun e => e.isStorage = false := by
    refine fun ctx => .bind (hstmt rfl) fun i => ?_
    cases i with
    | none => exact .fail rfl
    | some i => exact .pure _
  have hall : (svc.signalAdvance fuel cmd status ctx a node).AssembledFrom (KeepsSound env) (fun _ => True)
      fun e => e.isStorage = false :=
    .bind hwrites fun ctx => .bind (hevent nofun) fun _ => .bind hcompletes fun _ => .bind hresumes fun _ =>
      .bind (WorkflowService.assembled_applyOutcome (holdsOwn_keepsSound hclear) (fun _ he => he) trivial) fun _ =>
        .bind (hreload ctx) fun _ => .bind (hstmt rfl) fun _ => .pure _
  exact hall.run_within (fun _ hq => hq) htx

/-- What a signal provides is written back. -/
theorem returns_applyContextWrites {ctx : InstanceCtx} {round : Int} {patch : Option Json}
    (h : node.contextWrites = [] ∨ Provides patch node.contextWrites) :
    ∃ ctx' tx, Program.Returns (exec env) (applyContextWrites ctx node round patch) ⟨r, 0⟩ ctx' tx ∧
      tx.rows.activities = r.activities ∧ tx.rows.inst.status = r.inst.status := by
  unfold applyContextWrites
  by_cases hempty : node.contextWrites = []
  · rw [hempty]
    exact ⟨ctx, ⟨r, 0⟩, (returns_pure _ _ _ _ _).2 ⟨rfl, rfl⟩, rfl, rfl⟩
  · obtain ⟨fields, rfl, hkeys⟩ := h.resolve_left hempty
    obtain ⟨filtered, hfilter⟩ := filterPatch_ok_iff.2 hkeys
    rw [if_neg (by simpa using hempty)]
    simp only [returns_bind, returns_ofExcept, returns_append, returns_pure]
    exact ⟨_, _, ⟨filtered, _, ⟨hfilter, rfl⟩, _, _, (returns_exec rfl _).2 ⟨rfl, rfl⟩, (), _, rfl, rfl, rfl⟩, rfl, rfl⟩

/-- An active activity is completed. -/
theorem returns_completeActivity_active {a : ActivityInstance} {result : Option String} {actor : Int}
    {notes : Option String} (h : tx.rows.activities.any (ActivityRow.isActive a.id) = true) :
    Program.Returns (exec env) (completeActivity a result actor notes) tx ()
      (tx.map (·.completeActivity env.now a.id result actor notes (activityCompletedPayload a.id result))) := by
  refine (returns_bind _ _ _ _ _ _).2 ⟨true, _, (returns_exec rfl _).2 ⟨h.symm, rfl⟩, ?_⟩
  exact (returns_bind _ _ _ _ _ _).2 ⟨(), _, (returns_exec rfl _).2 ⟨rfl, rfl⟩, (returns_append _ _ _ _).2 rfl⟩

/-- A signal that would bring its instance back beside an open one of its business object fails in the storage. -/
theorem run_of_resumes (h : Resumes cmd r) (hopen : env.openElsewhere = true) :
    (svc.signal fuel cmd).run (exec env) ⟨r, 0⟩ =
      .error (.storage "duplicate key value violates unique constraint") := by
  obtain ⟨hwaiting, row, node, hadmitted, hadvances, hprovided⟩ := h
  obtain ⟨hrow, hactive⟩ := status_of_signalled hadmitted.target
  obtain ⟨ctx, tx, hwrites, hactivities, hstatus⟩ := @returns_applyContextWrites env r node r.ctx
    (row.intoModel r.inst.id).round cmd.contextPatch hprovided
  have hhit : tx.rows.activities.any (ActivityRow.isActive row.id) = true :=
    List.any_eq_true.2 ⟨row, by rwa [hactivities], by simp [hactive]⟩
  have hrefused : ∀ tx' : Tx, tx'.rows.inst.status = .returnedWaiting →
      (stmt .resumeFromReturnedWaiting : Prog Bool).run (exec env) tx' =
        .error (.storage "duplicate key value violates unique constraint") := by
    intro tx' hstatus'
    simp [stmt, run, exec, Tx.reopen, hstatus', hopen]
  rw [run_of_admitted hadmitted hadvances, WorkflowService.signalAdvance]
  refine (run_of_returns _ hwrites).trans ?_
  refine (run_of_returns _ ((returns_append _ _ _ ()).2 rfl)).trans ?_
  refine (run_of_returns _ (returns_completeActivity_active hhit)).trans ?_
  rw [run_bind, resumeIfWaiting, if_pos (by simp [hwaiting]), run_bind, hrefused]
  · rfl
  · exact hstatus.trans hwaiting

end

/-! The two stores. -/

section
variable {svc : WorkflowService} {store store₁ store₂ : Store} {supply : Supply} {fuel : Nat} {cmd : SignalCommand}
  {r : InstanceRows}

theorem SameResult.symm {o₁ o₂ : Outcome FlowError SignalOutcome} (h : SameResult o₁ o₂) : SameResult o₂ o₁ := by
  cases o₁ with
  | ok a =>
    cases o₂ with
    | ok b => exact Eq.symm h
    | _ => exact h
  | error e =>
    cases o₂ with
    | error e' => cases e <;> cases e' <;> exact h
    | _ => exact h
  | diverge => cases o₂ <;> exact h

/-- The others beside the instance of a signal. -/
def Store.beside (store : Store) (cmd : SignalCommand) : Store := store.filter fun x => x.inst.id != cmd.instanceId

theorem ids_of_beside (hid : r.inst.id = cmd.instanceId) : ∀ x ∈ store.beside cmd, x.inst.id ≠ r.inst.id := by
  intro x hx
  rw [hid]
  simpa using (List.mem_filter.1 hx).2

theorem eq_of_id (w : Store.WellFormed svc store) {x : InstanceRows} (hx : x ∈ store) (hr : r ∈ store)
    (hid : x.inst.id = r.inst.id) : x = r :=
  List.inj_on_of_nodup_map w.ids_nodup hx hr hid

theorem signalIn_of_mem (w : Store.WellFormed svc store) (hr : r ∈ store) (hid : r.inst.id = cmd.instanceId) :
    svc.signalIn fuel supply store cmd =
      ((svc.signal fuel cmd).run (exec (Store.env (store.beside cmd) supply r.inst)) ⟨r, 0⟩).value := by
  have hfind : store.find? (fun x => x.inst.id == cmd.instanceId) = some r := by
    cases hfound : store.find? fun x => x.inst.id == cmd.instanceId with
    | none => exact absurd hid (by simpa using List.find?_eq_none.1 hfound r hr)
    | some x =>
      have hx : x.inst.id = cmd.instanceId := by simpa using List.find?_some hfound
      rw [eq_of_id w (List.mem_of_find?_eq_some hfound) hr (hx.trans hid.symm)]
  unfold WorkflowService.signalIn
  rw [hfind]
  rfl

/-- A signal to an instance that is not there or not visible is refused. -/
theorem signalIn_of_unseen (h : ∀ r ∈ store, r.inst.id = cmd.instanceId → cmd.scope.sees r.inst = false) :
    svc.signalIn fuel supply store cmd =
      if isBlank cmd.idempotencyKey then .error (.validation "idempotency_key is required")
      else .error (.notFound s!"workflow instance {cmd.instanceId} not visible") := by
  unfold WorkflowService.signalIn
  split
  · rfl
  · next r hfound =>
    have hid : r.inst.id = cmd.instanceId := by simpa using List.find?_some hfound
    have hunseen := h r (List.mem_of_find?_eq_some hfound) hid
    unfold WorkflowService.signal
    split
    · rfl
    · simp only [run_bind, stmt, run, exec, hunseen, Bool.false_eq_true, if_false]
      rfl

theorem leaves_of_freshIn (h : supply.FreshIn store) : (store.beside cmd).Leaves supply := by
  intro n
  rw [← Option.not_isSome_iff_eq_none, findActivity_isSome_iff]
  rintro ⟨x, hx, a, ha, hid⟩
  exact (h x (List.mem_filter.1 hx).1 n).2 a ha hid

/-- An activity that the instance does not have is found beside it, if at all. -/
theorem hasActivity_beside (w : Store.WellFormed svc store) (hr : r ∈ store) (hid : r.inst.id = cmd.instanceId)
    {id : Uuid} (hnone : ∀ a ∈ r.activities, a.id ≠ id) :
    (store.beside cmd).HasActivity id ↔ store.HasActivity id := by
  constructor
  · rintro ⟨x, hx, a, ha, haid⟩
    exact ⟨x, (List.mem_filter.1 hx).1, a, ha, haid⟩
  · rintro ⟨x, hx, a, ha, haid⟩
    refine ⟨x, List.mem_filter.2 ⟨hx, ?_⟩, a, ha, haid⟩
    simp only [bne_iff_ne]
    intro hsame
    obtain rfl := eq_of_id w hx hr (hsame.trans hid.symm)
    exact hnone a ha haid

theorem openElsewhere_iff (hid : r.inst.id = cmd.instanceId) :
    (Store.env (store.beside cmd) supply r.inst).openElsewhere = true ↔ store.OpenBeside r := by
  change (store.beside cmd).any _ = true ↔ _
  unfold Store.beside Store.OpenBeside
  rw [hid, List.any_eq_true]
  simp only [List.mem_filter, bne_iff_ne]
  constructor
  · rintro ⟨x, ⟨hx, hne⟩, hopen⟩
    exact ⟨x, hx, hne, hopen⟩
  · rintro ⟨x, hx, hne, hopen⟩
    exact ⟨x, ⟨hx, hne⟩, hopen⟩

/-- Every for-each of a reachable store has recorded its count. -/
theorem counted_of_reachable (h : (engine svc).Reachable store) (hr : r ∈ store) :
    ∀ e ∈ r.events, e.eventType = .forEachFannedOut → (e.int "branch_count").isSome = true := by
  intro e he ht
  obtain ⟨nodes, round, hannounces⟩ := announces_of_forEach (logged_of_reachable h r hr) he ht
  obtain ⟨-, -, -, -, -, -, count, -, -, -, -, hcount, -⟩ := forEach_of_announces hannounces ht
  rw [hcount]
  rfl

/-- An activity in one of the stores only is told from one in neither. -/
theorem named_told (w₁ : Store.WellFormed svc store₁) (w₂ : Store.WellFormed svc store₂) (hr₁ : r ∈ store₁)
    (hr₂ : r ∈ store₂) (hid : r.inst.id = cmd.instanceId) {id : Uuid} (hnames : NamesForeign cmd r id)
    (hhas : store₁.HasActivity id) (hnot : ¬ store₂.HasActivity id) :
    ¬ SameResult (svc.signalIn fuel supply store₁ cmd) (svc.signalIn fuel supply store₂ cmd) := by
  obtain ⟨hattended, hnamed, hnone⟩ := hnames
  have hfound : ((Store.env (store₁.beside cmd) supply r.inst).foreignActivity id).isSome = true :=
    findActivity_isSome_iff.2 ((hasActivity_beside w₁ hr₁ hid hnone).2 hhas)
  have hmissing : ¬ ((Store.env (store₂.beside cmd) supply r.inst).foreignActivity id).isSome = true :=
    fun h => hnot ((hasActivity_beside w₂ hr₂ hid hnone).1 (findActivity_isSome_iff.1 h))
  rw [signalIn_of_mem w₁ hr₁ hid, signalIn_of_mem w₂ hr₂ hid, run_of_attended hattended, run_of_attended hattended,
    run_bind, run_bind, run_resolve_foreign (foreign_of_ids (ids_of_beside hid)) hid.symm hnamed hnone,
    run_resolve_foreign (foreign_of_ids (ids_of_beside hid)) hid.symm hnamed hnone, if_pos hfound, if_neg hmissing]
  intro hsame
  exact hsame

/-- An open instance of the business object in one of the stores only is told by a resume. -/
theorem open_told (w₁ : Store.WellFormed svc store₁) (h₂ : (engine svc).Reachable store₂) (hr₁ : r ∈ store₁)
    (hr₂ : r ∈ store₂) (hid : r.inst.id = cmd.instanceId) (hfresh : supply.FreshIn store₂)
    (hdistinct : Function.Injective supply.uuid) (hresumes : Resumes cmd r) (hopen : store₁.OpenBeside r)
    (hnot : ¬ store₂.OpenBeside r) :
    ¬ SameResult (svc.signalIn fuel supply store₁ cmd) (svc.signalIn fuel supply store₂ cmd) := by
  have hclear : (Store.env (store₂.beside cmd) supply r.inst).Clear :=
    ⟨hdistinct, leaves_of_freshIn hfresh, Bool.eq_false_iff.2 fun h => hnot ((openElsewhere_iff hid).1 h)⟩
  have hsound : Sound (Store.env (store₂.beside cmd) supply r.inst) ⟨r, 0⟩ :=
    ⟨fun a ha n _ => (hfresh r hr₂ n).2 a ha, counted_of_reachable h₂ hr₂⟩
  rw [signalIn_of_mem w₁ hr₁ hid, signalIn_of_mem (wellFormed_of_reachable h₂) hr₂ hid,
    run_of_resumes hresumes ((openElsewhere_iff hid).2 hopen)]
  obtain ⟨-, row, node, hadmitted, hadvances, -⟩ := hresumes
  rw [run_of_admitted hadmitted hadvances]
  have hwithin := @run_signalAdvance_within svc _ fuel cmd node ⟨r, 0⟩ hclear hsound r.inst.status r.ctx
    (row.intoModel r.inst.id)
  intro hsame
  cases hrun : (svc.signalAdvance fuel cmd r.inst.status r.ctx (row.intoModel r.inst.id) node).run
      (exec (Store.env (store₂.beside cmd) supply r.inst)) ⟨r, 0⟩ with
  | ok x =>
    rw [hrun] at hsame
    exact hsame
  | diverge =>
    rw [hrun] at hsame
    exact hsame
  | error e =>
    rw [hrun] at hsame hwithin
    cases e with
    | storage => cases hwithin
    | _ => exact hsame

/-- What tells an invisible row: signals that end alike ask alike. -/
theorem asksAlike_of_sameResult (h₁ : (engine svc).Reachable store₁) (h₂ : (engine svc).Reachable store₂)
    (hr₁ : r ∈ store₁) (hr₂ : r ∈ store₂) (hid : r.inst.id = cmd.instanceId) (hfresh₁ : supply.FreshIn store₁)
    (hfresh₂ : supply.FreshIn store₂) (hdistinct : Function.Injective supply.uuid)
    (hsame : SameResult (svc.signalIn fuel supply store₁ cmd) (svc.signalIn fuel supply store₂ cmd)) :
    AsksAlike cmd store₁ store₂ r := by
  have w₁ : Store.WellFormed svc store₁ := wellFormed_of_reachable h₁
  have w₂ : Store.WellFormed svc store₂ := wellFormed_of_reachable h₂
  constructor
  · intro id hnames
    constructor
    · intro hhas
      by_contra hnot
      exact named_told w₁ w₂ hr₁ hr₂ hid hnames hhas hnot hsame
    · intro hhas
      by_contra hnot
      exact named_told w₂ w₁ hr₂ hr₁ hid hnames hhas hnot hsame.symm
  · intro hresumes
    constructor
    · intro hopen
      by_contra hnot
      exact open_told w₁ h₂ hr₁ hr₂ hid hfresh₂ hdistinct hresumes hopen hnot hsame
    · intro hopen
      by_contra hnot
      exact open_told w₂ h₁ hr₂ hr₁ hid hfresh₁ hdistinct hresumes hopen hnot hsame.symm

theorem signalIn_eq_of_asksAlike (w₁ : Store.WellFormed svc store₁) (w₂ : Store.WellFormed svc store₂)
    (hr₁ : r ∈ store₁) (hr₂ : r ∈ store₂) (hid : r.inst.id = cmd.instanceId) (hfresh₁ : supply.FreshIn store₁)
    (hfresh₂ : supply.FreshIn store₂) (hasks : AsksAlike cmd store₁ store₂ r) :
    svc.signalIn fuel supply store₁ cmd = svc.signalIn fuel supply store₂ cmd := by
  rw [signalIn_of_mem w₁ hr₁ hid, signalIn_of_mem w₂ hr₂ hid]
  congr 1
  refine signal_eq (leaves_of_freshIn hfresh₁) (leaves_of_freshIn hfresh₂) (ids_of_beside hid) (ids_of_beside hid)
    hid.symm (fun id hnames => ?_) fun hresumes => ?_
  · rw [hasActivity_beside w₁ hr₁ hid hnames.2.2, hasActivity_beside w₂ hr₂ hid hnames.2.2]
    exact hasks.named id hnames
  · rw [Bool.eq_iff_iff, openElsewhere_iff hid, openElsewhere_iff hid]
    exact hasks.resumed hresumes

/-- A signal to an instance that it does not see asks nothing. -/
theorem asksAlike_of_unseen (hunseen : cmd.scope.sees r.inst = false) : AsksAlike cmd store₁ store₂ r := by
  refine ⟨fun id hnames => ?_, fun hresumes => ?_⟩
  · exact absurd hnames.1.visible (by simp [hunseen])
  · obtain ⟨-, row, node, hadmitted, -, -⟩ := hresumes
    exact absurd hadmitted.visible (by simp [hunseen])

/-- Two signals in stores with the same visible rows end alike exactly if what they ask beyond these rows has the same
answer in both: whether a named activity that the instance does not have exists, and whether another instance of the
business object of a returned-waiting instance is open. -/
theorem signal_scoped_iff (h₁ : (engine svc).Reachable store₁) (h₂ : (engine svc).Reachable store₂)
    (hagree : Store.AgreeIn cmd.scope store₁ store₂) (hfresh₁ : supply.FreshIn store₁)
    (hfresh₂ : supply.FreshIn store₂) (hdistinct : Function.Injective supply.uuid) :
    SameResult (svc.signalIn fuel supply store₁ cmd) (svc.signalIn fuel supply store₂ cmd) ↔
      ∀ r ∈ store₁, r.inst.id = cmd.instanceId → AsksAlike cmd store₁ store₂ r := by
  have w₁ : Store.WellFormed svc store₁ := wellFormed_of_reachable h₁
  have w₂ : Store.WellFormed svc store₂ := wellFormed_of_reachable h₂
  by_cases hseen : ∃ r ∈ store₁, r.inst.id = cmd.instanceId ∧ cmd.scope.sees r.inst = true
  · obtain ⟨r, hr₁, hid, hsees⟩ := hseen
    have hr₂ : r ∈ store₂ := (hagree r hsees).1 hr₁
    constructor
    · intro hsame x hx hxid
      obtain rfl := eq_of_id w₁ hx hr₁ (hxid.trans hid.symm)
      exact asksAlike_of_sameResult h₁ h₂ hx hr₂ hid hfresh₁ hfresh₂ hdistinct hsame
    · intro hall
      rw [signalIn_eq_of_asksAlike w₁ w₂ hr₁ hr₂ hid hfresh₁ hfresh₂ (hall r hr₁ hid)]
      exact .refl _
  · have hunseen₁ : ∀ r ∈ store₁, r.inst.id = cmd.instanceId → cmd.scope.sees r.inst = false :=
      fun r hr hid => Bool.eq_false_iff.2 fun hsees => hseen ⟨r, hr, hid, hsees⟩
    have hunseen₂ : ∀ r ∈ store₂, r.inst.id = cmd.instanceId → cmd.scope.sees r.inst = false :=
      fun r hr hid => Bool.eq_false_iff.2 fun hsees => hseen ⟨r, (hagree r hsees).2 hr, hid, hsees⟩
    rw [signalIn_of_unseen hunseen₁, signalIn_of_unseen hunseen₂]
    exact ⟨fun _ r hr hid => asksAlike_of_unseen (hunseen₁ r hr hid), fun _ => .refl _⟩

/-- The rows of one scope are not touched by a start of another tenant. -/
theorem agreeIn_of_start {scope : ScopeFilter} {start : StartCommand} {store' : Store}
    (h : Commits svc store (.start start) store') (hne : start.tenantId ≠ scope.tenantId) :
    Store.AgreeIn scope store store' := by
  cases h with
  | start hstart =>
    obtain ⟨-, -, -, rfl⟩ | ⟨-, -, r', hstarted, rfl⟩ := start_returns hstart
    · exact fun _ _ => .rfl
    · obtain ⟨entryId, entryRole, node, row, r₁, -, -, hsched, rfl⟩ := hstarted.rows
      have htenant : (r₁.pointTo row.id).inst.tenantId = start.tenantId := by
        rw [(@Keeps.pointTo svc r₁ row.id).evolves.tenantId, hsched.inst]
        rfl
      intro x hsees
      constructor
      · exact fun hx => List.mem_append_left _ hx
      · intro hx
        rcases List.mem_append.1 hx with hx | hx
        · exact hx
        · rw [List.mem_singleton.1 hx, ScopeFilter.sees, htenant, Bool.and_eq_true, beq_iff_eq] at hsees
          exact absurd hsees.1 hne

end

/-- The store of tenant 1 alone, its instance at an approval. -/
def alone : Store := played oneApproval 9 [.start { otherTenant with tenantId := 1, businessKey := "41" }]

/-- An approval of tenant 1 that names an activity. -/
def approveNamed (activity : Uuid) : SignalCommand :=
  ⟨⟨1, .allInTenant⟩, Sample.uuid 0 0, .approved, some activity, "approve", 7, none, none, none, none⟩

/-- A signal of tenant 1 that names the activity of tenant 2 fails otherwise than without tenant 2. -/
theorem foreign_activity_told :
    ∃ both, (engine oneApproval).Reachable alone ∧ (engine oneApproval).Reachable both ∧
      Store.AgreeIn ⟨1, .allInTenant⟩ alone both ∧
      ¬ SameResult (oneApproval.signalIn 9 (Supply.nth 5) both (approveNamed (Sample.uuid 1 1)))
        (oneApproval.signalIn 9 (Supply.nth 5) alone (approveNamed (Sample.uuid 1 1))) := by
  have hplayed : (alone.next oneApproval 9 1 (.start otherTenant)).any fun x =>
      x.2.any fun r => r.activities.any (·.id == Sample.uuid 1 1) := by
    decide +kernel
  have halone : alone.any fun r => decide (r.inst.id = Sample.uuid 0 0 ∧ Attended (approveNamed (Sample.uuid 1 1)) r) := by
    decide +kernel
  have hnone : alone.all fun r => r.activities.all fun a => !(a.id == Sample.uuid 1 1) := by decide +kernel
  simp only [List.all_eq_true, Bool.not_eq_true', beq_eq_false_iff_ne] at hnone
  obtain ⟨⟨op, both⟩, hnext, hboth⟩ := (Option.any_eq_true _ _).1 hplayed
  obtain ⟨x, hx, hhas⟩ := List.any_eq_true.1 hboth
  obtain ⟨a, ha, hid⟩ := List.any_eq_true.1 hhas
  obtain ⟨r, hr, hself⟩ := List.any_eq_true.1 halone
  obtain ⟨hown, hattended⟩ := of_decide_eq_true hself
  obtain rfl := Store.start_of_next hnext
  have hcommit := Store.commits_of_next hnext
  have hreachable : (engine oneApproval).Reachable both := .step (reachable_played ..) hcommit trivial
  have hagree : Store.AgreeIn ⟨1, .allInTenant⟩ alone both := agreeIn_of_start hcommit (by decide)
  refine ⟨both, reachable_played .., hreachable, hagree, ?_⟩
  apply named_told (wellFormed_of_reachable hreachable) (wellFormed_of_reachable (reachable_played ..))
    ((hagree r hattended.visible).1 hr) hr hown ⟨hattended, rfl, hnone r hr⟩
  · exact ⟨x, hx, a, ha, by simpa using hid⟩
  · rintro ⟨y, hy, b, hb, hbid⟩
    exact hnone y hy b hb hbid

/-- With its own activity named, the signal ends as without tenant 2. -/
theorem signal_scoped_iff_own :
    ∃ both, Commits oneApproval alone (.start otherTenant) both ∧
      SameResult (oneApproval.signalIn 9 (Supply.nth 5) alone (approveNamed (Sample.uuid 0 1)))
        (oneApproval.signalIn 9 (Supply.nth 5) both (approveNamed (Sample.uuid 0 1))) := by
  have hplayed : (alone.next oneApproval 9 1 (.start otherTenant)).any fun x =>
      decide (∀ y ∈ x.2.flatMap fun r => r.inst.id :: r.activities.map ActivityRow.id, y.toList[34]? ≠ some '5') := by
    decide +kernel
  obtain ⟨⟨op, both⟩, hnext, hfree⟩ := (Option.any_eq_true _ _).1 hplayed
  obtain rfl := Store.start_of_next hnext
  have hcommit := Store.commits_of_next hnext
  have hown : alone.all fun r => r.inst.status == .active && r.activities.any (·.id == Sample.uuid 0 1) := by
    decide +kernel
  simp only [List.all_eq_true, Bool.and_eq_true, List.any_eq_true, beq_iff_eq] at hown
  refine ⟨both, hcommit, (signal_scoped_iff (reachable_played ..) (.step (reachable_played ..) hcommit trivial)
    (agreeIn_of_start hcommit (by decide)) (Supply.nth_five_freshIn (by decide +kernel))
    (Supply.nth_five_freshIn (of_decide_eq_true hfree)) (Supply.nth_injective 5)).2 fun r hr _ => ⟨?_, ?_⟩⟩
  · rintro id ⟨-, hnamed, hnone⟩
    cases hnamed
    obtain ⟨a, ha, hid⟩ := (hown r hr).2
    exact absurd hid (hnone a ha)
  · rintro ⟨hwaiting, -⟩
    exact absurd (hwaiting.symm.trans (hown r hr).1) (by decide)

end Fusions.Hetuflow
