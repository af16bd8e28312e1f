import Fusions.Hetuflow.Service.Engine

/-! What one statement can do to the instance row, whatever the rows it meets. -/
namespace Fusions.Hetuflow
open Fusions.Library Program

/-- A change of status that the declared state machine allows. -/
structure WorkflowInstance.Transitions (i i' : WorkflowInstance) : Prop where
  declared : i.status.tryTransition i'.status = .ok i'.status
  not_errored : i.status ≠ .errored
  returned : i.status = .completed → i.result = some .returned

/-- The columns of the instance row that no statement changes. -/
def WorkflowInstance.identity (i : WorkflowInstance) : Uuid × Int × String × String :=
  (i.id, i.tenantId, i.businessKey, i.businessType)

/-- The next version of an instance row. -/
structure NextVersion (env : Env) (i i' : WorkflowInstance) : Prop where
  identity : i'.identity = i.identity
  status : i'.status = i.status ∨ i.Transitions i'
  indexed : i'.status.indexed = true → i.status.indexed = true ∨ env.openElsewhere = false

section
variable {env : Env} {tx tx' : Tx}

theorem NextVersion.refl (i : WorkflowInstance) : NextVersion env i i := ⟨rfl, .inl rfl, .inl⟩

private theorem nextVersion_casInstance {guard : WorkflowInstance → Bool} {f : WorkflowInstance → WorkflowInstance}
    {b : Bool} (hf : guard tx.rows.inst = true → NextVersion env tx.rows.inst (f tx.rows.inst))
    (h : (.ok (tx.casInstance guard f) : Except FlowError (Bool × Tx)) = .ok (b, tx')) :
    NextVersion env tx.rows.inst tx'.rows.inst := by
  unfold Tx.casInstance at h
  cases h
  split
  · next hguard => exact hf hguard
  · exact .refl _

private theorem nextVersion_reopen {guard : WorkflowInstance → Bool} {f : WorkflowInstance → WorkflowInstance}
    {b : Bool}
    (hf : guard tx.rows.inst = true → env.openElsewhere = false → NextVersion env tx.rows.inst (f tx.rows.inst))
    (h : tx.reopen env guard f = .ok (b, tx')) : NextVersion env tx.rows.inst tx'.rows.inst := by
  unfold Tx.reopen at h
  split at h
  · cases h
  · next hclosed => exact nextVersion_casInstance (fun hguard => hf hguard (by simpa [hguard] using hclosed)) h

/-- Every statement leaves the next version of the instance row. -/
theorem nextVersion_of_exec {β : Type} (q : Stmt β) {b : β} (h : exec env q tx = .ok (b, tx')) :
    NextVersion env tx.rows.inst tx'.rows.inst := by
  cases q with
  | completeWorkflowCas | errorWorkflow | enterReturnedWaiting =>
    rw [exec] at h
    refine nextVersion_casInstance (fun hactive => ?_) h
    have hs : tx.rows.inst.status = .active := by simpa using hactive
    exact ⟨rfl, .inr ⟨by rw [hs]; rfl, by simp [hs], by simp [hs]⟩, fun h => by cases h⟩
  | reactivateWorkflow =>
    rw [exec] at h
    refine nextVersion_reopen (fun hguard hclosed => ?_) h
    obtain ⟨hs, hresult⟩ : tx.rows.inst.status = .completed ∧ tx.rows.inst.result = some .returned := by
      simpa using hguard
    exact ⟨rfl, .inr ⟨by rw [hs]; rfl, by simp [hs], fun _ => hresult⟩, fun _ => .inr hclosed⟩
  | resumeFromReturnedWaiting =>
    rw [exec] at h
    refine nextVersion_reopen (fun hguard hclosed => ?_) h
    have hs : tx.rows.inst.status = .returnedWaiting := by simpa using hguard
    exact ⟨rfl, .inr ⟨by rw [hs]; rfl, by simp [hs], by simp [hs]⟩, fun _ => .inr hclosed⟩
  | updateCurrentActivity | markSideEffectsExecuted =>
    rw [exec] at h
    refine nextVersion_casInstance ?_ h
    exact fun _ => ⟨rfl, .inl rfl, .inl⟩
  | clearCurrentActivity | mergeInstanceContext =>
    cases h
    exact ⟨rfl, .inl rfl, .inl⟩
  | enqueueOutbox row =>
    cases h
    simp only [InstanceRows.enqueueOutbox]
    split <;> exact .refl _
  | _ =>
    simp only [exec, Tx.casActivities, Tx.insertActivity, Tx.scheduleTimer, InstanceRows.updateActivities,
      InstanceRows.updateTimers] at h
    repeat' split at h
    all_goals
      cases h
      try exact .refl _

/-- What every statement does, a call that returns does. -/
theorem Call.Returns.relates {svc : WorkflowService} {call : Call} {R : Tx → Tx → Prop} (hrefl : ∀ tx, R tx tx)
    (htrans : ∀ {s t u}, R s t → R t u → R s u)
    (hstmt : ∀ {β : Type} (q : Stmt β) {s s' : Tx} {b : β}, exec env q s = .ok (b, s') → R s s')
    (h : call.Returns svc env tx tx') : R tx tx' := by
  cases call with
  | signal cmd =>
    obtain ⟨-, fuel, out, h⟩ := h
    exact h.relates (exec env) hrefl htrans hstmt
  | resubmit scope key =>
    obtain ⟨out, h⟩ := h
    exact h.relates (exec env) hrefl htrans hstmt
  | fireTimer id =>
    obtain ⟨t, -, -, fuel, out, h⟩ := h
    exact h.relates (exec env) hrefl htrans hstmt
  | onNotificationDelivered id =>
    obtain ⟨-, fuel, out, h⟩ := h
    exact h.relates (exec env) hrefl htrans hstmt
  | onBusinessCallbackDelivered =>
    obtain ⟨out, h⟩ := h
    exact h.relates (exec env) hrefl htrans hstmt
  | onOutboxDeadLetter id activityType lastError =>
    obtain ⟨out, h⟩ := h
    exact h.relates (exec env) hrefl htrans hstmt

end
end Fusions.Hetuflow
