import Fusions.Hetuflow.Contract.Timers

/-! Domain-driven definitions: the engine by itself neither advances nor ends an instance. -/
namespace Fusions.Hetuflow
open Fusions.Library

/-- The calls that the engine makes by itself, not a caller. -/
def Call.engineInitiated : Call → Bool
  | .signal _ | .resubmit _ _ => false
  | _ => true

/-- What the graph's position is read from: status, result and current activity of the instance, and of each
activity its id, status, result and round. -/
def InstanceRows.position (r : InstanceRows) :
    (WorkflowStatus × Option WorkflowResult × Option Uuid) × List (Uuid × ActivityStatus × Option Int × Int) :=
  ((r.inst.status, r.inst.result, r.inst.currentActivityId),
    r.activities.map fun a => (a.id, a.status, a.result, a.round))

private theorem kind_of_domainDriven {nodes : List WorkflowNode} (h : validateDomainDriven nodes = .ok ()) :
    ∀ node ∈ nodes, node.kind.domainDriven = true := by
  intro node hnode
  simpa using reject_ok (forM_ok h node hnode)

section
variable {svc : WorkflowService} {env : Env} {r r' : InstanceRows}

private theorem position_enqueueOutbox (o : OutboxRow) : (r.enqueueOutbox o).position = r.position := by
  unfold InstanceRows.enqueueOutbox
  split <;> rfl

/-- An engine call that neither times out an activity nor completes a notification keeps the position. -/
private theorem Effect.position {call : Call} (h : Effect svc env call r r') (hcall : call.engineInitiated = true)
    (htimeout : ∀ t ∈ r.timers, timerKindStr t.timerKind ≠ "timeout")
    (hnotification : ∀ a ∈ r.activities, a.activityType ≠ .notification) : r'.position = r.position := by
  cases h with
  | nothing | timerGone | escalationGone | callback | deadLetter => rfl
  | assignee | advance | reenter => cases hcall
  | reminder => rw [position_enqueueOutbox]; rfl
  | @escalated t _ row node role payload =>
    rw [position_enqueueOutbox]
    simp only [InstanceRows.position, InstanceRows.escalate, InstanceRows.log, InstanceRows.appendEvent,
      InstanceRows.updateActivities, InstanceRows.timerFired, InstanceRows.fireTimer, InstanceRows.updateTimers,
      Prod.mk.injEq, true_and]
    apply map_updateWhere
    exact fun _ => rfl
  | timedOut ht hkind => exact absurd hkind (htimeout _ ht)
  | delivered hrow _ hkind => exact absurd hkind (hnotification _ hrow)

/-- Over a domain-driven definition no call of the engine's own moves the instance. -/
theorem domain_driven_position {store store' others : Store} {call : Call}
    (h : (engine svc).Reachable store) (hdomain : validateDomainDriven r.snapshot.nodes = .ok ())
    (hstep : Commits svc store (.call others r call r') store') (hcall : call.engineInitiated = true) :
    r'.position = r.position := by
  have w := wellFormed_of_reachable h
  cases hstep with
  | @call supply pre post r r' call drawn hreturns =>
    have hr : r ∈ pre ++ r :: post := by simp
    have wr := w.rows r hr
    have hkind : ∀ {id : String} {node : WorkflowNode}, findNode r.snapshot.nodes id = some node →
        node.kind.domainDriven = true := fun hfind =>
      kind_of_domainDriven hdomain _ (List.mem_of_find?_eq_some hfind)
    refine (effect_of_returns (w.foreign supply) wr.timersOwned hreturns).position hcall ?_ ?_
    · intro t ht htimeout
      obtain ⟨a, ha, hid, -⟩ := wr.timers t ht
      obtain ⟨node, hnode, hasks⟩ := (timed_of_reachable h r hr).asksFor wr ht ha hid
      rw [htimeout] at hasks
      rcases hasks with ⟨hname, -⟩ | ⟨hname, -⟩ | ⟨-, eventType, secs, target, hconfig, -⟩
      · exact absurd hname (by decide)
      · exact absurd hname (by decide)
      · have := hkind hnode
        simp [WorkflowNode.kind, hconfig, NodeKind.domainDriven] at this
    · intro a ha hnotification
      obtain ⟨node, hnode, htype⟩ := wr.nodes a ha
      have hdomain := hkind hnode
      rw [hnotification] at htype
      cases hk : node.kind <;> simp [hk, instantiatedActivityType, NodeKind.domainDriven] at htype hdomain

end

/-- The reminder of a domain-driven approval fires. -/
theorem domain_driven_position_reminder :
    let svc := Sample.service "fc00d560518173f8342472a6025b885c71377c98bca5096ffdba17d7d9a5c475"
    let store := played svc 9
      [Sample.start (Sample.definition [Sample.node "a" (.approval (some "manager") (some 3600) none none)]
        [Sample.approved "a" "end"]) none]
    ∃ others r r' store', Commits svc store (.call others r (.fireTimer (Sample.uuid 0 2)) r') store' ∧
      r'.events.length = r.events.length + 1 ∧ r'.position = r.position := by
  intro svc store
  have hstep : (store.next svc 9 1 (.call 0 (.fireTimer (Sample.uuid 0 2)))).any fun x =>
      match x.1 with
      | .call _ r _ r' => r'.events.length == r.events.length + 1 && (validateDomainDriven r.snapshot.nodes).isOk
      | _ => false := by
    decide +kernel
  obtain ⟨⟨op, store'⟩, hnext, hfired⟩ := (Option.any_eq_true _ _).1 hstep
  obtain ⟨others, r, r', rfl, -⟩ := Store.call_of_next hnext
  simp only [Bool.and_eq_true, beq_iff_eq] at hfired
  have hcommit := Store.commits_of_next hnext
  have hdomain : validateDomainDriven r.snapshot.nodes = .ok () := by
    cases hv : validateDomainDriven r.snapshot.nodes with
    | ok u => rfl
    | error e => simp [hv, Except.isOk, Except.toBool] at hfired
  exact ⟨others, r, r', store', hcommit, hfired.1,
    domain_driven_position (reachable_played svc 9 _) hdomain hcommit rfl⟩

end Fusions.Hetuflow
