import Fusions.Hetuflow.Contract.Tenants
import Fusions.Hetuflow.Service.Invariant

/-! Open instances of one business object: when there is at most one, and a start returns it. -/
namespace Fusions.Hetuflow
open Fusions.Library Program

/-- The instance is of this business object and has not ended. -/
def InstanceRows.isLiveFor (businessKey businessType : String) (r : InstanceRows) : Bool :=
  r.inst.businessKey == businessKey && r.inst.businessType == businessType && !r.inst.status.isTerminal

/-- The instance is of this business object and waits for a rework. -/
def InstanceRows.isWaitingFor (businessKey businessType : String) (r : InstanceRows) : Bool :=
  r.inst.businessKey == businessKey && r.inst.businessType == businessType && r.inst.status == .returnedWaiting

/-- No business object has two instances that have not ended. -/
def Store.LiveOnce (store : Store) : Prop :=
  ∀ businessKey businessType, store.countP (InstanceRows.isLiveFor businessKey businessType) ≤ 1

/-- A resubmit with this key reactivates the instance. -/
def InstanceRows.Reenters (r : InstanceRows) (key : String) : Prop :=
  r.inst.status = .completed ∧ r.inst.result = some .returned ∧ r.events.any (·.idempotencyKey == some key) = false

instance (r : InstanceRows) (key : String) : Decidable (r.Reenters key) := inferInstanceAs (Decidable (_ ∧ _))

/-- A start, and a resubmit that reactivates, meet no other instance of the business object that waits for a
rework. -/
def NoneWaiting (store : Store) : Op → Prop
  | .start cmd => ∀ r ∈ store, r.isWaitingFor cmd.businessKey cmd.businessType = false
  | .call others r (.resubmit _ key) _ =>
    r.Reenters key → ∀ x ∈ others, x.isWaitingFor r.inst.businessKey r.inst.businessType = false
  | .call .. => True

instance (store : Store) : (op : Op) → Decidable (NoneWaiting store op)
  | .start cmd => inferInstanceAs (Decidable (∀ r ∈ store, r.isWaitingFor cmd.businessKey cmd.businessType = false))
  | .call others r (.resubmit _ key) _ => inferInstanceAs (Decidable (r.Reenters key →
      ∀ x ∈ others, x.isWaitingFor r.inst.businessKey r.inst.businessType = false))
  | .call _ _ (.signal _) _ | .call _ _ (.fireTimer _) _ | .call _ _ (.onNotificationDelivered _) _
  | .call _ _ .onBusinessCallbackDelivered _ | .call _ _ (.onOutboxDeadLetter ..) _ => .isTrue trivial

section
variable {svc : WorkflowService} {env : Env} {r r' : InstanceRows} {key type : String}

theorem InstanceRows.isLiveFor_iff :
    r.isLiveFor key type = true ↔
      r.inst.businessKey = key ∧ r.inst.businessType = type ∧ r.inst.status.isTerminal = false := by
  simp [isLiveFor, and_assoc]

/-- What has not ended is in the index, or it waits for a rework. -/
private theorem open_or_waiting (h : r.isLiveFor key type = true) :
    r.isOpenFor key type = true ∨ r.isWaitingFor key type = true := by
  simp only [InstanceRows.isLiveFor, InstanceRows.isOpenFor, InstanceRows.isWaitingFor, Bool.and_eq_true,
    Bool.not_eq_true', beq_iff_eq] at h ⊢
  obtain ⟨⟨hkey, htype⟩, hs⟩ := h
  cases hstatus : r.inst.status <;> simp [hstatus, hkey, htype, WorkflowStatus.isTerminal] at hs ⊢ <;> decide

/-- A call brings an instance back only by reactivating it, and then the index holds no other. -/
private theorem Effect.live {call : Call} (h : Effect svc env call r r') (hs : r'.inst.status.isTerminal = false) :
    r.inst.status.isTerminal = false ∨
      env.openElsewhere = false ∧ ∃ scope key, call = .resubmit scope key ∧ r.Reenters key := by
  cases h with
  | nothing | timerGone | callback | deadLetter => exact .inl hs
  | assignee _ hterm => exact .inl hterm
  | advance _ _ hterm => exact .inl hterm
  | reenter hcompleted hreturned hclosed _ _ _ _ hfresh =>
    exact .inr ⟨hclosed, _, _, rfl, hcompleted, hreturned, hfresh⟩
  | reminder _ _ _ hterm => exact .inl hterm
  | escalationGone _ _ _ hterm => exact .inl hterm
  | escalated _ _ _ hterm => exact .inl hterm
  | timedOut _ _ _ _ _ hterm => exact .inl hterm
  | delivered _ _ _ hterm => exact .inl hterm

private theorem countP_eq_zero_of_closed {store : Store}
    (hopen : store.any (InstanceRows.isOpenFor key type) = false)
    (hwaiting : ∀ r ∈ store, r.isWaitingFor key type = false) :
    store.countP (InstanceRows.isLiveFor key type) = 0 := by
  refine List.countP_eq_zero.2 fun r hr hlive => ?_
  rcases open_or_waiting hlive with h | h
  · exact List.any_eq_false.1 hopen r hr h
  · exact absurd h (by simp [hwaiting r hr])

private theorem Started.businessObject {supply : Supply} {cmd : StartCommand} (h : Started svc env supply cmd r) :
    r.inst.businessKey = cmd.businessKey ∧ r.inst.businessType = cmd.businessType := by
  obtain ⟨entryId, entryRole, node, row, r₁, -, -, hsched, rfl⟩ := h.rows
  unfold InstanceRows.pointTo
  split
  · exact ⟨congrArg WorkflowInstance.businessKey hsched.inst, congrArg WorkflowInstance.businessType hsched.inst⟩
  · exact ⟨congrArg WorkflowInstance.businessKey hsched.inst, congrArg WorkflowInstance.businessType hsched.inst⟩

private theorem liveOnce_step {store store' : Store} {op : Op} (w : Store.WellFormed svc store)
    (hlive : store.LiveOnce) (hstep : Commits svc store op store') (hok : NoneWaiting store op) :
    store'.LiveOnce := by
  rcases hstep.cases w with ⟨cmd, -, rfl⟩ | ⟨cmd, supply, r', rfl, hopen, -, hstarted, rfl⟩ |
    ⟨pre, r, call, r', post, supply, rfl, rfl, rfl, heffect⟩
  · exact hlive
  · intro key type
    rw [List.countP_append, List.countP_singleton]
    split
    · next hnew =>
      obtain ⟨hkey, htype⟩ := hstarted.businessObject
      obtain ⟨rfl, rfl, -⟩ := InstanceRows.isLiveFor_iff.1 hnew
      have hzero := countP_eq_zero_of_closed hopen hok
      rw [hkey, htype]
      omega
    · exact hlive key type
  · intro key type
    have hevolves := (heffect.keeps (w.rows r (by simp))).evolves
    have hold := hlive key type
    rw [List.countP_append, List.countP_cons] at hold ⊢
    by_cases hnew : r'.isLiveFor key type = true
    · obtain ⟨hkey, htype, hs⟩ := InstanceRows.isLiveFor_iff.1 hnew
      rcases heffect.live hs with hbefore | ⟨hclosed, scope, idempotencyKey, rfl, hreenters⟩
      · have hr : r.isLiveFor key type = true := InstanceRows.isLiveFor_iff.2
          ⟨hevolves.businessKey.symm.trans hkey, hevolves.businessType.symm.trans htype, hbefore⟩
        simpa [hnew, hr] using hold
      · rw [hevolves.businessKey] at hkey
        rw [hevolves.businessType] at htype
        have hzero := countP_eq_zero_of_closed hclosed (hok hreenters)
        rw [List.countP_append, hkey, htype] at hzero
        simp only [hnew, ↓reduceIte]
        omega
    · have hle : List.countP (InstanceRows.isLiveFor key type) pre +
          List.countP (InstanceRows.isLiveFor key type) post ≤ 1 := by omega
      simpa [hnew] using hle

theorem liveOnce_of_reachable {store : Store} (h : (engine svc).ReachableIf NoneWaiting store) :
    store.LiveOnce := by
  refine h.invariant (P := Store.LiveOnce) ?_ ?_
  · rintro _ rfl key type
    simp
  · exact fun s op s' hs hlive hstep hok => liveOnce_step (wellFormed_of_reachable hs) hlive hstep hok

/-- Two live instances of one business object are one. -/
private theorem LiveOnce.eq {store : Store} (h : store.LiveOnce) {a b : InstanceRows} (ha : a ∈ store)
    (hb : b ∈ store) (hlive : a.isLiveFor key type = true) (hlive' : b.isLiveFor key type = true) : a = b := by
  have hlen := h key type
  rw [List.countP_eq_length_filter] at hlen
  have hfa := List.mem_filter.2 ⟨ha, hlive⟩
  have hfb := List.mem_filter.2 ⟨hb, hlive'⟩
  obtain ⟨x, hx⟩ := List.length_eq_one_iff.1 (Nat.le_antisymm hlen (List.length_pos_of_mem hfa))
  rw [hx, List.mem_singleton] at hfa hfb
  rw [hfa, hfb]

variable {supply : Supply} {store : Store} {cmd : StartCommand}

/-- Where nothing is in the index a start does not return with the store as it was. -/
private theorem start_of_closed (out : StartOutcome)
    (hopen : store.any (InstanceRows.isOpenFor cmd.businessKey cmd.businessType) = false) :
    svc.start supply store cmd ≠ .ok (out, store) := by
  intro hstart
  rcases start_returns hstart with ⟨r, hfound, -, -⟩ | ⟨-, -, r', -, hstore⟩
  · have hopened := List.find?_some hfound
    exact List.any_eq_false.1 hopen r (List.mem_of_find?_eq_some hfound) hopened
  · simp at hstore

/-- If no start and no reactivating resubmit meets another instance of its business object that waits for
a rework, then no business object has two instances that have not ended; and a start on a business object
with such an instance returns exactly that instance and writes nothing, exactly if it is not one that waits
for a rework. -/
theorem live_once (h : (engine svc).ReachableIf NoneWaiting store) :
    store.LiveOnce ∧ ∀ supply cmd entry r, svc.checkStart cmd = .ok entry → r ∈ store →
      r.isLiveFor cmd.businessKey cmd.businessType = true →
      (svc.start supply store cmd = .ok (⟨r.inst, false, r.models r.activeRows⟩, store) ↔
        r.inst.status ≠ .returnedWaiting) := by
  have hlive := liveOnce_of_reachable h
  refine ⟨hlive, fun supply cmd entry r hcheck hr hrlive => ⟨fun hstart hwaiting => ?_, fun hs => ?_⟩⟩
  · refine start_of_closed _ ?_ hstart
    refine List.any_eq_false.2 fun x hx hopen => ?_
    obtain ⟨hkey, htype, hindexed⟩ := InstanceRows.isOpenFor_iff.1 hopen
    have hxlive : x.isLiveFor cmd.businessKey cmd.businessType = true := by
      refine InstanceRows.isLiveFor_iff.2 ⟨hkey, htype, ?_⟩
      cases hstatus : x.inst.status <;> rw [hstatus] at hindexed <;> first | rfl | cases hindexed
    rw [LiveOnce.eq hlive hx hr hxlive hrlive, hwaiting] at hindexed
    cases hindexed
  · have hopen : r.isOpenFor cmd.businessKey cmd.businessType = true := by
      refine (open_or_waiting hrlive).resolve_right fun hwaiting => hs ?_
      simp only [InstanceRows.isWaitingFor, Bool.and_eq_true, beq_iff_eq] at hwaiting
      exact hwaiting.2
    rw [← startUnder_all, startUnder_of_open hcheck (openOnce_of_reachable h.reachable) hr hopen]
    rfl

end

/-- Two approvals, the second of which hands back to the first; then the business object is started again. -/
def startedAgain : Store :=
  let start := Sample.start (Sample.definition [Sample.approval "a", Sample.approval "b"]
    [Sample.approved "a" "b", Sample.approved "b" "end", ⟨"b", "a", .returned⟩]) none
  played (Sample.service "7a6d27b815241864571160d73edf780b97bb8792a8a90ff64f336e175813388e") 9
    [start, Sample.approve (Sample.uuid 0 1), Sample.signal .returned none (Sample.uuid 1 0), start]

/-- The instance that waits for its rework is not in the index, and a second one is created beside it. -/
theorem waiting_started_again : (engine (Sample.service
      "7a6d27b815241864571160d73edf780b97bb8792a8a90ff64f336e175813388e")).Reachable startedAgain ∧
    ¬ startedAgain.LiveOnce ∧
    (startedAgain.map fun r => r.inst.status) = [.returnedWaiting, .active] := by
  refine ⟨reachable_played .., fun hlive => ?_, by decide⟩
  have htwo : startedAgain.countP (InstanceRows.isLiveFor "42" "order") = 2 := by decide
  have hone := hlive "42" "order"
  omega

/-- Beside the instance that tenant 2 has started, its start returns that instance. -/
theorem live_once_taken : taken.LiveOnce ∧ ∀ r ∈ taken,
    oneApproval.start (Supply.nth 5) taken otherTenant = .ok (⟨r.inst, false, r.models r.activeRows⟩, taken) := by
  have hrun : (engine oneApproval).ReachableIf NoneWaiting taken := reachableIf_played 9 [.start otherTenant] (by decide)
  have hcheck : oneApproval.checkStart otherTenant = .ok ("a", some "manager") := by rfl
  have hlive : ∀ r ∈ taken, r.isLiveFor otherTenant.businessKey otherTenant.businessType = true ∧
      r.inst.status ≠ .returnedWaiting := by decide
  refine ⟨(live_once hrun).1, fun r hr => ?_⟩
  exact ((live_once hrun).2 (Supply.nth 5) otherTenant _ r hcheck hr (hlive r hr).1).2 (hlive r hr).2

end Fusions.Hetuflow
