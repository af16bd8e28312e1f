import Fusions.Hetuflow.Contract.FalseAlarms
import Fusions.Hetuflow.Service.Resolution
import Fusions.Hetuflow.Service.Simulation
import Fusions.Hetuflow.Service.Script

/-! The result of an instance that completes at an End node, from the code of the node through every chain of merges,
conditions and joins that leads there. -/
namespace Fusions.Hetuflow
open Library

/-- What is decided at a node: on a signal, or when its event wait expires. -/
inductive Decision where
  | signal (nodeId : String) (signal : SignalType)
  | timeout (nodeId : String)

/-- The result that a node completes with, as the resolver reads its code. -/
def WorkflowNode.endResult (node : WorkflowNode) : WorkflowResult :=
  (node.endResultCode.bind WorkflowResult.fromDb).getD .approved

namespace Decision

def decide (cel : Cel) (ctx : InstanceCtx) : Decision → AdvanceOutcome × ResolveTrace
  | .signal nodeId s =>
    decideAdvance cel ctx.snapshot.nodes ctx.snapshot.transitions ctx.context nodeId s
  | .timeout nodeId =>
    decideEventWaitTimeout cel ctx.snapshot.nodes ctx.snapshot.transitions ctx.context nodeId

/-- The target that a decision resolves, along the edge of its signal or where its event wait expires to. A hand-back
completes nothing, and is left out. -/
inductive Resolves (s : DefinitionSnapshot) : Decision → String → Prop where
  | edge {id : String} {signal : SignalType} {t : WorkflowTransition} : isJoinIncomingSignal signal = true →
      IsEdge s.transitions id signal t → Resolves s (.signal id signal) t.target
  | timeout {id eventType target : String} {seconds : Option Int} {node : WorkflowNode} : IsNode s.nodes id node →
      node.eventWait = some (eventType, seconds, some target) → Resolves s (.timeout id) target

/-- A decision lands on an End node: the walk from the target that it resolves ends there. -/
def LandsOnEnd (cel : Cel) (ctx : InstanceCtx) (d : Decision) (e : WorkflowNode) : Prop :=
  ∃ target walk, d.Resolves ctx.snapshot target ∧
    Walk cel ctx.snapshot.nodes ctx.snapshot.transitions ctx.context target walk e.id ∧
    IsNode ctx.snapshot.nodes e.id e ∧ e.kind = .endNode

/-- A signal that ends the instance by itself. -/
def Outright (d : Decision) (result : WorkflowResult) : Prop :=
  ∃ id, d = .signal id .rejected ∧ result = .rejected ∨ d = .signal id .returned ∧ result = .returned

variable {cel : Cel} {ctx : InstanceCtx} {d : Decision} {e e' : WorkflowNode} {result : WorkflowResult}
  {trace : ResolveTrace} {target target' : String}

theorem Resolves.unique {s : DefinitionSnapshot} (h : d.Resolves s target) (k : d.Resolves s target') :
    target' = target := by
  cases h with
  | edge _ hedge =>
    cases k with
    | edge _ hedge' =>
      have hsame := (findNextTransition_eq_some_iff.2 hedge').symm.trans (findNextTransition_eq_some_iff.2 hedge)
      rw [Option.some.inj hsame]
  | timeout hnode hwait =>
    cases k with
    | timeout hnode' hwait' =>
      rw [hnode.unique hnode', hwait] at hwait'
      cases hwait'
      rfl

/-- A decision lands on one End node at most. -/
theorem LandsOnEnd.unique (h : d.LandsOnEnd cel ctx e) (k : d.LandsOnEnd cel ctx e') : e' = e := by
  obtain ⟨target, walk, hresolves, hwalk, hnode, hkind⟩ := h
  obtain ⟨target', walk', hresolves', hwalk', hnode', hkind'⟩ := k
  obtain rfl := hresolves.unique hresolves'
  have hend {n : WorkflowNode} (hn : IsNode ctx.snapshot.nodes n.id n) (hk : n.kind = .endNode) (v : String) :
      ¬ Hop cel ctx.snapshot.nodes ctx.snapshot.transitions ctx.context n.id v :=
    LandsOn.not_hop (.finished hn hk)
  obtain ⟨-, hid⟩ := hwalk.unique hwalk' (hend hnode hkind) (hend hnode' hkind')
  rw [hid] at hnode'
  exact hnode.unique hnode'

/-- What is resolved to a completion is resolved to an End node, and completes with its result. -/
private theorem landsOnEnd_of_resolve (hresolves : d.Resolves ctx.snapshot target)
    (h : resolve cel ctx.snapshot.nodes ctx.snapshot.transitions ctx.context target = (.complete result, trace)) :
    ∃ e, d.LandsOnEnd cel ctx e ∧ result = e.endResult := by
  obtain ⟨walk, last, hwalk, hlands⟩ := landing_of_resolve h nofun
  generalize trace.forEachFanOut = fan at hlands
  cases hlands with
  | @finished node hnode hkind =>
    obtain rfl : node.id = last := id_of_findNode (findNode_eq_some_iff.2 hnode)
    exact ⟨node, ⟨target, walk, hresolves, hwalk, hnode, hkind⟩, rfl⟩

/-- A decision completes an instance outright, or at an End node, with the result of that node. -/
theorem completes (h : d.decide cel ctx = (.complete result, trace)) :
    d.Outright result ∨ ∃ e, d.LandsOnEnd cel ctx e ∧ result = e.endResult := by
  cases d with
  | signal id s =>
    change decideAdvance cel ctx.snapshot.nodes ctx.snapshot.transitions ctx.context id s = _ at h
    have hedge (hincoming : isJoinIncomingSignal s = true) {t : WorkflowTransition}
        (ht : findNextTransition ctx.snapshot.transitions id s = some t) :
        (Decision.signal id s).Resolves ctx.snapshot t.target :=
      .edge hincoming (findNextTransition_eq_some_iff.1 ht)
    unfold decideAdvance at h
    cases s with
    | rejected =>
      cases h
      exact .inl ⟨id, .inl ⟨rfl, rfl⟩⟩
    | returned =>
      dsimp only at h
      split at h
      · split at h <;> cases h
      · cases h
        exact .inl ⟨id, .inr ⟨rfl, rfl⟩⟩
    | resubmitted | claimed | reassigned => cases h
    | approved | eventReceived | completed =>
      dsimp only at h
      split at h
      · next t ht => exact .inr (landsOnEnd_of_resolve (hedge rfl ht) h)
      · cases h
  | timeout id =>
    change decideEventWaitTimeout cel ctx.snapshot.nodes ctx.snapshot.transitions ctx.context id = _ at h
    unfold decideEventWaitTimeout at h
    split at h
    · cases h
    · next node hnode =>
      split at h
      · next hwait => exact .inr (landsOnEnd_of_resolve (.timeout (findNode_eq_some_iff.1 hnode) hwait) h)
      · cases h

/-- What ends an instance outright resolves no target. -/
theorem Outright.not_resolves {s : DefinitionSnapshot} (h : d.Outright result) : ¬ d.Resolves s target := by
  obtain ⟨id, ⟨rfl, -⟩ | ⟨rfl, -⟩⟩ := h
  all_goals
    intro hresolves
    cases hresolves with
    | edge hincoming _ => cases hincoming

/-- The result of a completion is that of the End node where the decision lands. -/
theorem result_of_landsOnEnd (h : d.LandsOnEnd cel ctx e) (hdecide : d.decide cel ctx = (.complete result, trace)) :
    result = e.endResult := by
  rcases completes hdecide with houtright | ⟨e', hlands, hresult⟩
  · obtain ⟨target, walk, hresolves, -⟩ := h
    exact absurd hresolves houtright.not_resolves
  · obtain rfl := h.unique hlands
    exact hresult

end Decision

section
variable (env : Env) (ctx : InstanceCtx) (source : ActivityInstance) (round : Int) (svc : WorkflowService)
  (e : WorkflowNode)

/-- An applied decision completes the instance at the End node: it lands there, or the decision of a join that it
makes fire does. -/
inductive EndsAt : Decision → InstanceRows → InstanceRows → Prop where
  | lands {d : Decision} {result : WorkflowResult} {trace : ResolveTrace} {r r' : InstanceRows} :
      d.LandsOnEnd svc.cel ctx e → d.decide svc.cel ctx = (.complete result, trace) →
      Applied env ctx source round svc (.complete result) trace r r' → EndsAt d r r'
  | fires {d : Decision} {outcome : AdvanceOutcome} {trace : ResolveTrace} {r r₁ r' : InstanceRows}
      {join : WorkflowNode} {exclude : Option Uuid} {arrived expected : Int} :
      d.decide svc.cel ctx = (outcome, trace) → Reaches env ctx source round outcome trace r join exclude r₁ →
      JoinCounts ctx.snapshot r₁ join.id round arrived expected →
      (join.joinStrategy.getD .waitAll).isSatisfied arrived expected = true →
      EndsAt (.signal join.id .approved) (r₁.fire env.now join round arrived expected exclude) r' → EndsAt d r r'

end

/-- A call resolves an activity, decides at its node, and applies the decision to the rows `r₀`. -/
inductive Call.Decides (env : Env) (r : InstanceRows) (row : ActivityRow) :
    Call → InstanceCtx → Decision → InstanceRows → Prop where
  | signal {cmd : SignalCommand} {node : WorkflowNode} {ctx : InstanceCtx} {r₁ : InstanceRows} :
      r.ctx.node row.activityDefinitionId = .ok node →
      ContextWritten env node row.round cmd.contextPatch r.ctx r ctx r₁ →
      Decides env r row (.signal cmd) ctx (.signal row.activityDefinitionId cmd.signal)
        (r₁.resolve env.now cmd (row.intoModel r.inst.id))
  | timeout {t : TimerRow} {node : WorkflowNode} : t ∈ r.timers → timerKindStr t.timerKind = "timeout" →
      r.ctx.node row.activityDefinitionId = .ok node →
      Decides env r row (.fireTimer t.id) r.ctx (.timeout row.activityDefinitionId)
        ((r.timerFired env.now t row.id node.id).timeOutActivity env.now row.id)
  | delivered : Decides env r row (.onNotificationDelivered row.id) r.ctx
      (.signal row.activityDefinitionId .completed) (r.deliver env.now row.id)

/-- The call completes the instance at the End node. -/
def CompletesAt (svc : WorkflowService) (env : Env) (call : Call) (r r' : InstanceRows) (e : WorkflowNode) : Prop :=
  ∃ row ctx d r₀, row ∈ r.activities ∧ row.status = .active ∧ call.Decides env r row ctx d r₀ ∧
    EndsAt env ctx (row.intoModel r.inst.id) row.round svc e d r₀ r'

/-- The call is a REJECTED or RETURNED signal that ends the instance by itself. -/
def CompletesOutright (call : Call) (r' : InstanceRows) : Prop :=
  ∃ cmd, call = .signal cmd ∧ (cmd.signal = .rejected ∧ r'.inst.result = some .rejected ∨
    cmd.signal = .returned ∧ r'.inst.result = some .returned)

/-- The result is the one that the code names. -/
def Names (code : String) (result : Option WorkflowResult) : Prop :=
  ∃ w, WorkflowResult.fromDb code = some w ∧ result = some w

section
variable {svc : WorkflowService} {env : Env} {ctx : InstanceCtx} {source : ActivityInstance} {round : Int}
  {e : WorkflowNode} {d : Decision} {outcome : AdvanceOutcome} {trace : ResolveTrace} {result : WorkflowResult}
  {r r' : InstanceRows} {call : Call}

theorem InstanceRows.resume_running {now : Time} {a : ActivityInstance} (h : r.inst.status ≠ .completed) :
    (r.resume now a).inst.status ≠ .completed := by
  unfold InstanceRows.resume
  split
  · exact nofun
  · exact h

theorem Applied.completed (h : Applied env ctx source round svc (.complete result) trace r r') :
    r'.inst.status = .completed ∧ r'.inst.result = some result := by
  cases h with
  | wait hreach => cases hreach
  | fire hreach => cases hreach
  | complete _ hr₁ _ =>
    subst hr₁
    exact ⟨rfl, rfl⟩

/-- A completion at an End node has the result of that node, however many joins fired on the way. -/
theorem EndsAt.completed (h : EndsAt env ctx source round svc e d r r') :
    r'.inst.status = .completed ∧ r'.inst.result = some e.endResult := by
  induction h with
  | lands hlands hdecide happly =>
    obtain ⟨hstatus, hresult⟩ := happly.completed
    exact ⟨hstatus, by rw [hresult, Decision.result_of_landsOnEnd hlands hdecide]⟩
  | fires _ _ _ _ _ ih => exact ih

/-- An applied decision that completes the instance does so outright or at an End node. -/
theorem Applied.ends (h : Applied env ctx source round svc outcome trace r r')
    (hdecide : d.decide svc.cel ctx = (outcome, trace)) (hbefore : r.inst.status ≠ .completed)
    (hafter : r'.inst.status = .completed) :
    (∃ result, d.Outright result ∧ r'.inst.result = some result) ∨ ∃ e, EndsAt env ctx source round svc e d r r' := by
  induction h generalizing d with
  | schedule _ _ hsched =>
    rw [pointTo_status, hsched.inst, passMerges_inst] at hafter
    exact absurd hafter hbefore
  | fan _ hbranches =>
    rw [hbranches.inst] at hafter
    change (InstanceRows.passMerges ..).inst.status = _ at hafter
    rw [passMerges_inst] at hafter
    exact absurd hafter hbefore
  | wait hreach _ _ => exact absurd (hreach.rows.2.2.1.symm.trans hafter) hbefore
  | @fire outcome trace r r₁ r₂ join exclude arrived expected hreach hcounts hsatisfied happly ih =>
    have hsame : (r₁.fire env.now join round arrived expected exclude).inst.status = r.inst.status := by
      rw [fire_inst, hreach.rows.2.2.1]
    rcases ih (d := .signal join.id .approved) rfl (by rwa [hsame]) hafter with ⟨result, houtright, -⟩ | ⟨e, hends⟩
    · obtain ⟨id, ⟨hd, -⟩ | ⟨hd, -⟩⟩ := houtright <;> cases hd
    · exact .inr ⟨e, .fires hdecide hreach hcounts hsatisfied hends⟩
  | @complete result trace r r₁ os hactive hr₁ hintents =>
    have happly : Applied env ctx source round svc (.complete result) trace r { r₁ with outbox := r₁.outbox ++ os } :=
      .complete hactive hr₁ hintents
    rcases Decision.completes hdecide with houtright | ⟨e, hlands, -⟩
    · exact .inl ⟨result, houtright, happly.completed.2⟩
    · exact .inr ⟨e, .lands hlands hdecide happly⟩
  | rework => cases hafter
  | @error trace r reason =>
    change (InstanceRows.errorOut _).inst.status = _ at hafter
    unfold InstanceRows.errorOut at hafter
    split at hafter
    · cases hafter
    · rw [passMerges_inst] at hafter
      exact absurd hafter hbefore

/-- A call that completes an instance is a signal that ends it outright, or completes it at an End node. -/
theorem Effect.ends (h : Effect svc env call r r') (hbefore : r.inst.status ≠ .completed)
    (hafter : r'.inst.status = .completed) : CompletesOutright call r' ∨ ∃ e, CompletesAt svc env call r r' e := by
  cases h with
  | nothing | assignee | timerGone | escalationGone | callback | deadLetter => exact absurd hafter hbefore
  | @advance cmd _ r₁ _ row node ctx _ _ _ hrow hactive hnode _ hctx happly =>
    have hrunning : (r₁.resolve env.now cmd (row.intoModel r.inst.id)).inst.status ≠ .completed := by
      have hsame : r₁.inst.status = r.inst.status := by cases hctx <;> rfl
      rw [← hsame] at hbefore
      exact InstanceRows.resume_running hbefore
    rcases happly.ends (d := .signal row.activityDefinitionId cmd.signal) rfl hrunning hafter with
      ⟨result, ⟨id, ⟨hd, rfl⟩ | ⟨hd, rfl⟩⟩, hresult⟩ | ⟨e, hends⟩
    · exact .inl ⟨cmd, rfl, .inl ⟨(Decision.signal.inj hd).2, hresult⟩⟩
    · exact .inl ⟨cmd, rfl, .inr ⟨(Decision.signal.inj hd).2, hresult⟩⟩
    · exact .inr ⟨e, row, ctx, _, _, hrow, hactive, .signal hnode hctx, hends⟩
  | reenter hcompleted => exact absurd hcompleted hbefore
  | reminder | escalated =>
    rw [InstanceRows.enqueueOutbox_inst] at hafter
    exact absurd hafter hbefore
  | @timedOut t _ _ row node ht hkind _ hrow hactive _ hnode happly =>
    rcases happly.ends (d := .timeout row.activityDefinitionId) rfl hbefore hafter with ⟨result, houtright, -⟩ | ⟨e, hends⟩
    · obtain ⟨id, ⟨hd, -⟩ | ⟨hd, -⟩⟩ := houtright <;> cases hd
    · exact .inr ⟨e, row, _, _, _, hrow, hactive, .timeout ht hkind hnode, hends⟩
  | @delivered _ _ row hrow hactive _ _ happly =>
    rcases happly.ends (d := .signal row.activityDefinitionId .completed) rfl hbefore hafter with
      ⟨result, houtright, -⟩ | ⟨e, hends⟩
    · obtain ⟨id, ⟨hd, -⟩ | ⟨hd, -⟩⟩ := houtright <;> cases hd
    · exact .inr ⟨e, row, _, _, _, hrow, hactive, .delivered, hends⟩

theorem EndsAt.isEnd (h : EndsAt env ctx source round svc e d r r') :
    e ∈ ctx.snapshot.nodes ∧ e.kind = .endNode := by
  induction h with
  | lands hlands =>
    obtain ⟨target, walk, -, -, hnode, hkind⟩ := hlands
    exact ⟨List.mem_of_find?_eq_some (findNode_eq_some_iff.2 hnode), hkind⟩
  | fires _ _ _ _ _ ih => exact ih

/-- Where a call completes an instance is an End node of its definition. -/
theorem CompletesAt.isEnd (h : CompletesAt svc env call r r' e) : e ∈ r.snapshot.nodes ∧ e.kind = .endNode := by
  obtain ⟨row, ctx, d, r₀, -, -, hdecides, hends⟩ := h
  have hsnapshot : ctx.snapshot = r.snapshot := by
    cases hdecides with
    | signal _ hctx => cases hctx <;> rfl
    | timeout | delivered => rfl
  rw [← hsnapshot]
  exact hends.isEnd

/-- The codes that name a result are the three of `from_db`. -/
theorem names_iff {code : String} (hcode : e.endResultCode = some code) :
    Names code (some e.endResult) ↔ code = "approved" ∨ code = "rejected" ∨ code = "returned" := by
  unfold Names WorkflowNode.endResult
  rw [hcode, Option.bind_some]
  constructor
  · rintro ⟨w, hw, -⟩
    unfold WorkflowResult.fromDb at hw
    by_contra hother
    obtain ⟨h₁, h₂, h₃⟩ : code ≠ "approved" ∧ code ≠ "rejected" ∧ code ≠ "returned" := by
      simpa only [not_or] using hother
    simp [h₁, h₂, h₃] at hw
  · rintro (rfl | rfl | rfl)
    · exact ⟨.approved, rfl, rfl⟩
    · exact ⟨.rejected, rfl, rfl⟩
    · exact ⟨.returned, rfl, rfl⟩

/-- In every run, a call that completes an instance is a signal that ends it outright, or completes it at an End
node; and at an End node with a code, the result is the one that the code names exactly if it is one of the three
known codes. Any other code completes the instance as approved. -/
theorem end_result_named_iff {pre post : Store} {supply : Supply} {drawn : Nat}
    (h : (engine svc).Reachable (pre ++ r :: post))
    (hreturns : call.Returns svc (Store.env (pre ++ post) supply r.inst) ⟨r, 0⟩ ⟨r', drawn⟩) :
    (r.inst.status ≠ .completed → r'.inst.status = .completed → CompletesOutright call r' ∨
      ∃ e, CompletesAt svc (Store.env (pre ++ post) supply r.inst) call r r' e) ∧
    ∀ e code, CompletesAt svc (Store.env (pre ++ post) supply r.inst) call r r' e → e.endResultCode = some code →
      (Names code r'.inst.result ↔ code = "approved" ∨ code = "rejected" ∨ code = "returned") ∧
      (¬ Names code r'.inst.result → r'.inst.result = some .approved) := by
  have w := wellFormed_of_reachable h
  have heffect := effect_of_returns (w.foreign supply) (w.rows r (by simp)).timersOwned hreturns
  refine ⟨fun hbefore hafter => heffect.ends hbefore hafter, ?_⟩
  rintro e code ⟨row, ctx, d, r₀, -, -, -, hends⟩ hcode
  rw [hends.completed.2]
  refine ⟨names_iff hcode, fun hother => ?_⟩
  have hunknown : WorkflowResult.fromDb code = none := by
    cases hcase : WorkflowResult.fromDb code with
    | none => rfl
    | some result => exact absurd ⟨result, hcase, by simp [WorkflowNode.endResult, hcode, hcase]⟩ hother
  simp [WorkflowNode.endResult, hcode, hunknown]

end

/-! One approval, and an End node with a given code behind it. -/

private def coded (code : String) : DefinitionSnapshot :=
  { Sample.definition [] [Sample.approved "a" "end"] with
    nodes := [Sample.node "start" .start, Sample.approval "a", Sample.node "end" (.endNode (some code))] }

private def archiving (hash : String) : WorkflowService := .new .default ⟨[("archive", .businessKey)]⟩ Sample.cel fun _ => hash

private def startCoded (code : String) : StartCommand :=
  ⟨1, "00000000-0000-4000-8000-00000000f001", "00000000-0000-4000-8000-00000000d001", coded code, "REF-1", "order", "42",
    none, some ⟨"archive", .obj []⟩⟩

private def approval : SignalCommand :=
  ⟨⟨1, .allInTenant⟩, Sample.uuid 0 0, .approved, some (Sample.uuid 0 1), "approved", 7, none, none, none, none⟩

private def completes (svc : WorkflowService) (r : InstanceRows) : Option Tx :=
  (Call.signal approval).perform svc 9 (Store.env ([] ++ []) (Supply.nth 1) r.inst) ⟨r, 0⟩

/-- The approval completes the instance at the only End node of its definition. -/
private theorem completesAt_code {svc : WorkflowService} {r : InstanceRows} {tx : Tx} {code : String}
    (h : (engine svc).Reachable ([] ++ [r])) (hperform : completes svc r = some tx)
    (hbefore : r.inst.status ≠ .completed) (hafter : tx.rows.inst.status = .completed)
    (hnodes : ∀ e ∈ r.snapshot.nodes, e.kind = .endNode → e.endResultCode = some code) :
    ∃ e, CompletesAt svc (Store.env ([] ++ []) (Supply.nth 1) r.inst) (.signal approval) r tx.rows e ∧
      e.endResultCode = some code := by
  have w := wellFormed_of_reachable h
  have heffect := effect_of_returns (w.foreign (Supply.nth 1)) (w.rows r (by simp)).timersOwned
    (Call.returns_of_perform hperform)
  rcases heffect.ends hbefore hafter with ⟨cmd, hcmd, hends⟩ | ⟨e, hends⟩
  · cases hcmd
    rcases hends with ⟨hs, -⟩ | ⟨hs, -⟩ <;> cases hs
  · exact ⟨e, hends, hnodes e hends.isEnd.1 hends.isEnd.2⟩

private def rejecting : WorkflowService :=
  archiving "171c4bbb5247f3d54dfa347cb2d093c53e8eb15f26525ed9da0a00d3e67223bd"

theorem end_result_named_iff_rejected :
    let store := played rejecting 9 [.start (startCoded "rejected")]
    store.length = 1 ∧ ∀ r ∈ store, ∃ tx, completes rejecting r = some tx ∧ Names "rejected" tx.rows.inst.result := by
  intro store
  have hlength : store.length = 1 := by decide +kernel
  have hrows : ∀ r ∈ store, r.inst.status ≠ .completed ∧ (completes rejecting r).any
      (fun tx => tx.rows.inst.status == .completed) = true ∧
      ∀ e ∈ r.snapshot.nodes, e.kind = .endNode → e.endResultCode = some "rejected" := by decide +kernel
  refine ⟨hlength, fun r hr => ?_⟩
  obtain ⟨hbefore, hany, hnodes⟩ := hrows r hr
  obtain ⟨tx, htx, hafter⟩ := (Option.any_eq_true _ _).1 hany
  obtain ⟨x, hx⟩ := List.length_eq_one_iff.1 hlength
  obtain rfl : r = x := by simpa [hx] using hr
  have hreachable : (engine rejecting).Reachable ([] ++ [r]) := by
    rw [List.nil_append, ← hx]
    exact reachable_played ..
  obtain ⟨e, hends, hcode⟩ := completesAt_code hreachable htx hbefore (by simpa using hafter) hnodes
  have hreturns := Call.returns_of_perform htx
  exact ⟨tx, htx, (((end_result_named_iff hreachable hreturns).2 e _ hends hcode).1).2 (.inr (.inl rfl))⟩

private def withdrawing : WorkflowService :=
  archiving "b545e99bb9fecb152de248155751e78ef3626e2059749a827980977eb7141b9b"

/-- An End node with the code "withdrawn" completes its instance as approved, and the terminal callback goes out. -/
theorem withdrawn_completes_approved :
    let store := played withdrawing 9 [.start (startCoded "withdrawn")]
    (engine withdrawing).Reachable store ∧ store.length = 1 ∧ ∀ r ∈ store,
      ∃ tx e, (Call.signal approval).Returns withdrawing (Store.env ([] ++ []) (Supply.nth 1) r.inst) ⟨r, 0⟩ tx ∧
        CompletesAt withdrawing (Store.env ([] ++ []) (Supply.nth 1) r.inst) (.signal approval) r tx.rows e ∧
        e.endResultCode = some "withdrawn" ∧ ¬ Names "withdrawn" tx.rows.inst.result ∧
        tx.rows.inst.result = some .approved ∧ ∃ o ∈ tx.rows.outbox, o.activityType = "business_callback" := by
  intro store
  have hlength : store.length = 1 := by decide +kernel
  have hrows : ∀ r ∈ store, r.inst.status ≠ .completed ∧ (completes withdrawing r).any
      (fun tx => tx.rows.inst.status == .completed && tx.rows.inst.result == some .approved &&
        tx.rows.outbox.any fun o => o.activityType == "business_callback") = true ∧
      ∀ e ∈ r.snapshot.nodes, e.kind = .endNode → e.endResultCode = some "withdrawn" := by decide +kernel
  refine ⟨reachable_played .., hlength, fun r hr => ?_⟩
  obtain ⟨hbefore, hany, hnodes⟩ := hrows r hr
  obtain ⟨tx, htx, hafter⟩ := (Option.any_eq_true _ _).1 hany
  simp only [Bool.and_eq_true, beq_iff_eq, List.any_eq_true] at hafter
  obtain ⟨⟨hcompleted, hresult⟩, hcallback⟩ := hafter
  obtain ⟨x, hx⟩ := List.length_eq_one_iff.1 hlength
  obtain rfl : r = x := by simpa [hx] using hr
  have hreachable : (engine withdrawing).Reachable ([] ++ [r]) := by
    rw [List.nil_append, ← hx]
    exact reachable_played ..
  obtain ⟨e, hends, hcode⟩ := completesAt_code hreachable htx hbefore hcompleted hnodes
  have hunnamed : ¬ Names "withdrawn" tx.rows.inst.result := by
    rintro ⟨result, hresult, -⟩
    cases hresult
  exact ⟨tx, e, Call.returns_of_perform htx, hends, hcode, hunnamed, hresult, hcallback⟩

end Fusions.Hetuflow
