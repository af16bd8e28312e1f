import Fusions.Hetuflow.Service.Admission
import Fusions.Hetuflow.Service.Resolution
import Fusions.Hetuflow.Service.Script

/-! The write-back of declared context keys: what a signal leaves in the context, and what its decision is made
on. -/
namespace Fusions.Hetuflow
open Fusions.Library

/-- The context read as an object, under a key. -/
def contextEntry (context : Option Json) (key : String) : Option Json := context.bind fun c => c.get key

/-- The context is absent or an object. -/
def ReadsAsObject (context : Option Json) : Prop := ∀ c ∈ context, ∃ fields, c = .obj fields

/-- The patch is an object that has every declared key. -/
def Provides (patch : Option Json) (declared : List String) : Prop :=
  ∃ fields, patch = some (.obj fields) ∧ ∀ key ∈ declared, (Json.obj fields).get key ≠ none

/-- The declared keys are those of the patch, all others as they were, and the outcome applied is the one that is
decided on the context as it is then. -/
structure WrittenBack (svc : WorkflowService) (env : Env) (cmd : SignalCommand) (row : ActivityRow)
    (node : WorkflowNode) (r r' : InstanceRows) : Prop where
  declared : ∀ key ∈ node.contextWrites,
    contextEntry r'.inst.context key = contextEntry cmd.contextPatch key
  others : ∀ key, key ∉ node.contextWrites → contextEntry r'.inst.context key = contextEntry r.inst.context key
  decided : ∃ (ctx : InstanceCtx) (r₁ : InstanceRows), ctx.context = r'.inst.context ∧
    Applied env ctx (row.intoModel r.inst.id) row.round svc
      (decideAdvance svc.cel r.snapshot.nodes r.snapshot.transitions r'.inst.context row.activityDefinitionId
        cmd.signal).1
      (decideAdvance svc.cel r.snapshot.nodes r.snapshot.transitions r'.inst.context row.activityDefinitionId
        cmd.signal).2
      (r₁.resolve env.now cmd (row.intoModel r.inst.id)) r'

/-- The declared keys of a patch that has them, each with its value there. -/
theorem filterPatch_ok_iff {nodeId : String} {patch : Json} {declared : List String} :
    (∃ filtered, filterPatch nodeId patch declared = .ok filtered) ↔ ∀ key ∈ declared, patch.get key ≠ none := by
  induction declared with
  | nil => simp [filterPatch]
  | cons key keys ih =>
    rw [List.forall_mem_cons, ← ih, filterPatch]
    cases patch.get key with
    | none => simp
    | some value =>
      cases filterPatch nodeId patch keys <;> simp

/-- Merged into an object, the declared keys take the values of the patch, and the others stay. -/
theorem get_concat {nodeId : String} {patch : Json} {declared : List String} {fields filtered : List (String × Json)}
    (h : filterPatch nodeId patch declared = .ok filtered) (key : String) :
    (Json.concat (.obj fields) (.obj filtered)).get key =
      if key ∈ declared then patch.get key else (Json.obj fields).get key := by
  change (filtered.foldl _ fields).lookup key = if key ∈ declared then patch.get key else fields.lookup key
  induction declared generalizing fields filtered with
  | nil =>
    obtain rfl := Except.ok.inj h
    simp
  | cons name names ih =>
    rw [filterPatch] at h
    cases hvalue : patch.get name with
    | none => simp [hvalue] at h
    | some value =>
      cases hrest : filterPatch nodeId patch names with
      | error e => simp [hvalue, hrest] at h
      | ok rest =>
        simp only [hvalue, hrest, Except.ok.injEq] at h
        subst h
        rw [List.foldl_cons, ih hrest, Json.lookup_insert]
        by_cases hkey : key = name
        · simp [hkey, hvalue]
        · simp [hkey]

/-- Merged into anything else, there is an array. -/
theorem get_concat_of_not_object {context : Json} (h : ∀ fields, context ≠ .obj fields)
    (filtered : List (String × Json)) (key : String) : (Json.concat context (.obj filtered)).get key = none := by
  cases context with
  | obj fields => exact absurd rfl (h fields)
  | _ => rfl

section
variable {svc : WorkflowService} {env : Env} {cmd : SignalCommand} {ctx : InstanceCtx} {source : ActivityInstance}
  {round : Int} {r r₁ r' : InstanceRows} {row : ActivityRow} {node : WorkflowNode} {outcome : AdvanceOutcome}
  {trace : ResolveTrace} {fuel drawn : Nat}

theorem pointTo_context (r : InstanceRows) (id : Uuid) : (r.pointTo id).inst.context = r.inst.context := by
  unfold InstanceRows.pointTo
  split <;> rfl

theorem resume_context (r : InstanceRows) (now : Time) (a : ActivityInstance) :
    (r.resume now a).inst.context = r.inst.context := by
  unfold InstanceRows.resume
  split <;> rfl

theorem fanOutRows_context (targets : List ParallelTarget) :
    (fanOutRows env source round trace targets r).inst.context = r.inst.context := by
  change (r.passMerges env.now source.activityDefinitionId round trace.mergesPassed).inst.context = _
  rw [passMerges_inst]

theorem Reaches.context {join : WorkflowNode} {exclude : Option Uuid}
    (h : Reaches env ctx source round outcome trace r join exclude r₁) : r₁.inst.context = r.inst.context := by
  cases h with
  | arrive => exact congrArg WorkflowInstance.context (passMerges_inst ..)
  | emptyFanOut => exact fanOutRows_context []

/-- No outcome touches the context. -/
theorem Applied.context (h : Applied env ctx source round svc outcome trace r r') :
    r'.inst.context = r.inst.context := by
  induction h with
  | schedule _ _ hsched => rw [pointTo_context, hsched.inst, passMerges_inst]
  | fan _ hbranches => rw [hbranches.inst, fanOutRows_context]
  | wait hreach _ _ => exact hreach.context
  | fire hreach _ _ _ ih => rw [ih, fire_inst, hreach.context]
  | @complete result trace r r₁ os _ hr₁ _ =>
    subst hr₁
    change (r.passMerges env.now source.activityDefinitionId round trace.mergesPassed).inst.context = _
    rw [passMerges_inst]
  | @rework target role trace r r₁ node row _ _ _ hsched =>
    change r₁.inst.context = _
    rw [hsched.inst, passMerges_inst]
  | @error trace r reason =>
    change (InstanceRows.errorOut _).inst.context = _
    unfold InstanceRows.errorOut
    split
    · change (r.passMerges env.now source.activityDefinitionId round trace.mergesPassed).inst.context = _
      rw [passMerges_inst]
    · rw [passMerges_inst]

/-- A signal that returns has merged the declared keys of its patch, and has applied what is decided on the merged
context. -/
theorem written_of_returns {out : SignalOutcome} {tx' : Tx} (h : Admitted cmd r row node)
    (hadvances : cmd.advances = true) (hdeclared : node.contextWrites ≠ [])
    (hreturns : Program.Returns (exec env) (svc.signal fuel cmd) ⟨r, drawn⟩ out tx') :
    ∃ (fields filtered : List (String × Json)) (ctx : InstanceCtx) (r₁ : InstanceRows), cmd.contextPatch = some (.obj fields) ∧
      filterPatch node.id (.obj fields) node.contextWrites = .ok filtered ∧
      tx'.rows.inst.context = some (Json.concat (r.inst.context.getD (.obj [])) (.obj filtered)) ∧
      ctx.context = tx'.rows.inst.context ∧ ctx.snapshot = r.snapshot ∧
      Applied env ctx (row.intoModel r.inst.id) row.round svc
        (decideAdvance svc.cel ctx.snapshot.nodes ctx.snapshot.transitions ctx.context row.activityDefinitionId
          cmd.signal).1
        (decideAdvance svc.cel ctx.snapshot.nodes ctx.snapshot.transitions ctx.context row.activityDefinitionId
          cmd.signal).2
        (r₁.resolve env.now cmd (row.intoModel r.inst.id)) tx'.rows := by
  have hadvance : Program.Returns (exec env)
      (svc.signalAdvance fuel cmd r.inst.status r.ctx (row.intoModel r.inst.id) node) ⟨r, drawn⟩ out tx' :=
    (run_of_admitted h hadvances).symm.trans hreturns
  obtain ⟨ctx, r₁, hwritten, happly⟩ := returns_signalAdvance (by rfl) hadvance
  cases hwritten with
  | none hempty => exact absurd hempty hdeclared
  | @merged fields filtered merged _ hpatch hfilter hmerged =>
    have hcontext : tx'.rows.inst.context = some merged := by
      rw [happly.context, InstanceRows.resolve, resume_context]
      rfl
    rw [hmerged] at hcontext
    exact ⟨fields, filtered, _, _, hpatch, hfilter, hcontext, by rw [hcontext, hmerged], rfl, happly⟩

/-- A signal without a patch that has the declared keys fails. -/
theorem run_of_not_provides (h : Admitted cmd r row node) (hadvances : cmd.advances = true)
    (hdeclared : node.contextWrites ≠ []) (hpatch : ¬ Provides cmd.contextPatch node.contextWrites) :
    ∃ e, (svc.signal fuel cmd).run (exec env) ⟨r, drawn⟩ = .error e := by
  suffices hfails : ∃ e, (applyContextWrites r.ctx node row.round cmd.contextPatch).run (exec env) ⟨r, drawn⟩ =
      .error e by
    obtain ⟨e, he⟩ := hfails
    refine ⟨e, ?_⟩
    rw [run_of_admitted h hadvances, WorkflowService.signalAdvance, Program.run_bind]
    rw [show (row.intoModel r.inst.id).round = row.round from rfl, he]
    rfl
  have hnonempty : node.contextWrites.isEmpty = false := by simpa using hdeclared
  unfold applyContextWrites
  rw [hnonempty, if_neg Bool.false_ne_true]
  split
  · next fields hobj =>
    cases hfilter : filterPatch node.id (.obj fields) node.contextWrites with
    | error e => exact ⟨e, rfl⟩
    | ok filtered => exact absurd ⟨fields, hobj, filterPatch_ok_iff.1 ⟨filtered, hfilter⟩⟩ hpatch
  · exact ⟨_, rfl⟩

/-- A signal to a node with declared keys fails and changes nothing when its patch lacks one; and when it returns,
it has written them back exactly if the context was absent or an object. -/
theorem context_written_back_iff (h : Admitted cmd r row node) (hadvances : cmd.advances = true)
    (hdeclared : node.contextWrites ≠ []) :
    (¬ Provides cmd.contextPatch node.contextWrites →
      (∃ e, (svc.signal fuel cmd).run (exec env) ⟨r, drawn⟩ = .error e) ∧
        rowsAfter r ((svc.signal fuel cmd).run (exec env) ⟨r, drawn⟩) = r) ∧
    ∀ out tx', (svc.signal fuel cmd).run (exec env) ⟨r, drawn⟩ = .ok (out, tx') →
      (WrittenBack svc env cmd row node r tx'.rows ↔ ReadsAsObject r.inst.context) := by
  constructor
  · intro hpatch
    obtain ⟨e, he⟩ := @run_of_not_provides svc env cmd r row node fuel drawn h hadvances hdeclared hpatch
    exact ⟨⟨e, he⟩, by rw [he]; rfl⟩
  · intro out tx' hreturns
    obtain ⟨fields, filtered, ctx, r₁, hpatch, hfilter, hcontext, hctx, hsnapshot, happly⟩ :=
      written_of_returns h hadvances hdeclared hreturns
    constructor
    · intro hwritten context hcontext'
      -- an array in its place has none of the declared keys
      by_contra hobject
      obtain ⟨key, hkey⟩ := List.exists_mem_of_ne_nil _ hdeclared
      have hentry := hwritten.declared key hkey
      rw [Option.mem_def.1 hcontext', Option.getD_some] at hcontext
      rw [hcontext, hpatch] at hentry
      simp only [contextEntry, Option.bind_some] at hentry
      rw [get_concat_of_not_object (fun f hf => hobject ⟨f, hf⟩)] at hentry
      exact filterPatch_ok_iff.1 ⟨filtered, hfilter⟩ key hkey hentry.symm
    · intro hobject
      have hget : ∀ key, contextEntry tx'.rows.inst.context key =
          if key ∈ node.contextWrites then (Json.obj fields).get key else contextEntry r.inst.context key := by
        intro key
        rw [hcontext]
        cases hbefore : r.inst.context with
        | none => exact get_concat hfilter key
        | some context =>
          obtain ⟨before, rfl⟩ := hobject context hbefore
          exact get_concat hfilter key
      refine ⟨fun key hkey => ?_, fun key hkey => ?_, ctx, r₁, hctx, ?_⟩
      · rw [hget, if_pos hkey, hpatch]
        rfl
      · rw [hget, if_neg hkey]
      · rw [hsnapshot, hctx] at happly
        exact happly

end

/-! One approval that writes back an amount, over a given start context. -/

private def writing : WorkflowNode := { Sample.approval "a" with contextWrites := ["amount"] }

private def writingService : WorkflowService :=
  Sample.service "7c229f41fca31c7ca7dae7da53931a398e9bd88ef22af7f034cf4d877ba8d2ec"

private def startedOn (context : Option Json) : Store :=
  played writingService 9 [Sample.start (Sample.definition [writing] [Sample.approved "a" "end"]) context]

private def approveAmount : SignalCommand :=
  ⟨⟨1, .allInTenant⟩, Sample.uuid 0 0, .approved, some (Sample.uuid 0 1), "approved", 7, none, none, none,
    some (.obj [("amount", .num 5)])⟩

private def writingRow : ActivityRow :=
  ⟨Sample.uuid 0 1, 1, "a", .approval, .active, some "manager", none, none, none, none, none, 1⟩

private def approvedRun (r : InstanceRows) : Outcome FlowError (SignalOutcome × Tx) :=
  (writingService.signal 9 approveAmount).run (exec (Store.env [] (Supply.nth 1) r.inst)) ⟨r, 0⟩

theorem context_written_back_iff_absent : (startedOn none).length = 1 ∧ ∀ r ∈ startedOn none,
    WrittenBack writingService (Store.env [] (Supply.nth 1) r.inst) approveAmount writingRow writing r
      (rowsAfter r (approvedRun r)) := by
  have hrows : ∀ r ∈ startedOn none, Admitted approveAmount r writingRow writing ∧ r.inst.context.isNone = true ∧
      (approvedRun r).final.isSome = true := by decide +kernel
  refine ⟨by decide +kernel, fun r hr => ?_⟩
  obtain ⟨hadmitted, hcontext, hreturns⟩ := hrows r hr
  obtain ⟨tx, htx⟩ := Option.isSome_iff_exists.1 hreturns
  obtain ⟨out, hrun⟩ := Outcome.of_final htx
  have hobject : ReadsAsObject r.inst.context := by
    rw [Option.isNone_iff_eq_none.1 hcontext]
    exact nofun
  rw [hrun]
  exact ((context_written_back_iff hadmitted rfl (by decide)).2 out tx hrun).2 hobject

/-- Over a start context that is an array, the amount is not found in the context after the approval. -/
theorem array_context_loses_write : (engine writingService).Reachable (startedOn (some (.arr []))) ∧
    (startedOn (some (.arr []))).length = 1 ∧ ∀ r ∈ startedOn (some (.arr [])),
      Admitted approveAmount r writingRow writing ∧ Provides approveAmount.contextPatch writing.contextWrites ∧
      (∃ out tx', approvedRun r = .ok (out, tx')) ∧
      ¬ WrittenBack writingService (Store.env [] (Supply.nth 1) r.inst) approveAmount writingRow writing r
        (rowsAfter r (approvedRun r)) := by
  have hrows : ∀ r ∈ startedOn (some (.arr [])), Admitted approveAmount r writingRow writing ∧
      (approvedRun r).final.isSome = true ∧
      (contextEntry (rowsAfter r (approvedRun r)).inst.context "amount").isNone = true := by decide +kernel
  refine ⟨reachable_played .., by decide +kernel, fun r hr => ?_⟩
  obtain ⟨hadmitted, hreturns, hlost⟩ := hrows r hr
  obtain ⟨tx, htx⟩ := Option.isSome_iff_exists.1 hreturns
  obtain ⟨out, hrun⟩ := Outcome.of_final htx
  refine ⟨hadmitted, ⟨_, rfl, ?_⟩, ⟨out, tx, hrun⟩, fun hwritten => ?_⟩
  · intro key hkey
    obtain rfl := List.mem_singleton.1 hkey
    exact nofun
  · rw [hwritten.declared "amount" (List.mem_singleton_self _)] at hlost
    cases hlost

end Fusions.Hetuflow
