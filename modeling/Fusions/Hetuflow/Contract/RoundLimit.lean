import Fusions.Hetuflow.Contract.Rounds
import Fusions.Hetuflow.Service.Admission

/-! A rework beyond the round limit: the end of the instance is written, and lost again with the transaction. -/
namespace Fusions.Hetuflow
open Fusions.Library

namespace InstanceRows

/-- The instance is ended by an error, and its log says so. -/
def EndedByError (r : InstanceRows) : Prop :=
  r.inst.status = .errored ∧ ∃ e ∈ r.events, e.eventType = .errored

instance (r : InstanceRows) : Decidable r.EndedByError := by
  unfold EndedByError
  infer_instance

variable {r : InstanceRows} {now : Time} {cmd : SignalCommand} {a : ActivityInstance}

/-- A resolved activity keeps its round, and so the next round is the same before and after. -/
theorem maxRound_resolve : (r.resolve now cmd a).maxRound = r.maxRound := by
  have hrounds : (r.resolve now cmd a).activities.map ActivityRow.round = r.activities.map ActivityRow.round := by
    rw [resolve, resume_activities]
    apply map_updateWhere
    exact fun _ => rfl
  rw [maxRound, hrounds, maxRound]

end InstanceRows

section
variable {svc : WorkflowService} {env : Env} {cmd : SignalCommand} {r r₁ : InstanceRows} {row : ActivityRow}
  {node : WorkflowNode} {ctx ctx' : InstanceCtx} {target : String} {role : Option String} {drawn : Nat}

/-- The write-back is determined by the patch and the rows. -/
theorem ContextWritten.unique {r₂ : InstanceRows} {round : Int} {patch : Option Json} {ctx₀ : InstanceCtx}
    (h : ContextWritten env node round patch ctx₀ r ctx r₁) (k : ContextWritten env node round patch ctx₀ r ctx' r₂) :
    ctx = ctx' ∧ r₁ = r₂ := by
  cases h with
  | none hempty =>
    cases k with
    | none => exact ⟨rfl, rfl⟩
    | merged hdeclared => exact absurd hempty hdeclared
  | merged hdeclared hpatch hfilter hmerged =>
    cases k with
    | none hempty => exact absurd hempty hdeclared
    | merged _ hpatch' hfilter' hmerged' =>
      obtain ⟨⟩ := hpatch.symm.trans hpatch'
      obtain ⟨⟩ := hfilter.symm.trans hfilter'
      subst hmerged hmerged'
      exact ⟨rfl, rfl⟩

/-- A hand-back is applied within the limit only. -/
theorem Applied.within_limit {source : ActivityInstance} {round : Int} {trace : ResolveTrace} {r' : InstanceRows}
    (h : Applied env ctx source round svc (.rework target role) trace r r') :
    r.maxRound + 1 ≤ svc.effectiveLimit ctx.snapshot := by
  have hcheck : svc.checkRound ctx (r.maxRound + 1) = .ok () := by
    cases h with
    | rework hcheck => exact hcheck
    | wait hreach => cases hreach
    | fire hreach => cases hreach
  unfold WorkflowService.checkRound at hcheck
  dsimp only at hcheck
  split at hcheck
  · cases hcheck
  · omega

/-- A signal that is decided as a rework beyond the limit is rolled back: the instance is as it was, and not
ended. -/
theorem rework_beyond_limit_lost {fuel : Nat} (h : Admitted cmd r row node) (hadvances : cmd.advances = true)
    (hwritten : ContextWritten env node row.round cmd.contextPatch r.ctx r ctx r₁)
    (hrework : (decideAdvance svc.cel ctx.snapshot.nodes ctx.snapshot.transitions ctx.context
      row.activityDefinitionId cmd.signal).1 = .rework target role)
    (hlimit : svc.effectiveLimit r.snapshot < r.maxRound + 1) :
    rowsAfter r ((svc.signal fuel cmd).run (exec env) ⟨r, drawn⟩) = r ∧
      ¬ (rowsAfter r ((svc.signal fuel cmd).run (exec env) ⟨r, drawn⟩)).EndedByError := by
  have hlost : rowsAfter r ((svc.signal fuel cmd).run (exec env) ⟨r, drawn⟩) = r := by
    rw [run_of_admitted h hadvances]
    cases hrun : (svc.signalAdvance fuel cmd r.inst.status r.ctx (row.intoModel r.inst.id) node).run (exec env)
        ⟨r, drawn⟩ with
    | error | diverge => rfl
    | ok x =>
      obtain ⟨out, tx⟩ := x
      have hreturns : Program.Returns (exec env)
          (svc.signalAdvance fuel cmd r.inst.status r.ctx (row.intoModel r.inst.id) node) ⟨r, drawn⟩ out tx := hrun
      obtain ⟨ctx', r₂, hwritten', happly⟩ := returns_signalAdvance (by rfl) hreturns
      obtain ⟨rfl, rfl⟩ := hwritten.unique hwritten'
      rw [show (row.intoModel r.inst.id).activityDefinitionId = row.activityDefinitionId from rfl, hrework] at happly
      have hwithin := happly.within_limit
      have hrounds : r₁.maxRound = r.maxRound := by cases hwritten <;> rfl
      rw [InstanceRows.maxRound_resolve, hrounds, show ctx.snapshot = r.snapshot by cases hwritten <;> rfl] at hwithin
      omega
  rw [hlost]
  refine ⟨rfl, fun hended => ?_⟩
  have hrunning := h.running
  rw [hended.1] at hrunning
  cases hrunning

end

/-! Two approvals, the second of which may hand back to the first, with a limit of one round. -/

private def oneRound : DefinitionSnapshot :=
  { Sample.definition [Sample.approval "a", Sample.approval "b"]
      [Sample.approved "a" "b", Sample.approved "b" "end", ⟨"b", "a", .returned⟩] with maxRound := 1 }

private def oneRoundService : WorkflowService :=
  Sample.service "9bb53eb04981e390e316070ef9db946192f24e54f6899403aa1d65d1c5915dc0"

/-- The first approval is given, and the second stands open. -/
private def atSecond : Store :=
  played oneRoundService 9 [Sample.start oneRound none, Sample.approve (Sample.uuid 0 1)]

private def handBack : SignalCommand :=
  ⟨⟨1, .allInTenant⟩, Sample.uuid 0 0, .returned, some (Sample.uuid 1 0), "returned", 7, none, none, none, none⟩

private def second : ActivityRow :=
  ⟨Sample.uuid 1 0, 1, "b", .approval, .active, some "manager", none, none, none, none, none, 1⟩

theorem rework_beyond_limit_lost_one_round : atSecond.length = 1 ∧ ∀ r ∈ atSecond,
    rowsAfter r ((oneRoundService.signal 9 handBack).run (exec (Store.env [] (Supply.nth 2) r.inst)) ⟨r, 0⟩) = r := by
  have hrows : ∀ r ∈ atSecond, r.snapshot = oneRound ∧ Admitted handBack r second (Sample.approval "b") ∧
      oneRoundService.effectiveLimit r.snapshot < r.maxRound + 1 := by decide +kernel
  refine ⟨by decide +kernel, fun r hr => ?_⟩
  obtain ⟨hsnapshot, hadmitted, hlimit⟩ := hrows r hr
  have hrework : (decideAdvance oneRoundService.cel r.ctx.snapshot.nodes r.ctx.snapshot.transitions r.ctx.context
      second.activityDefinitionId handBack.signal).1 = .rework "a" (some "manager") := by
    rw [show r.ctx.snapshot = oneRound from hsnapshot]
    rfl
  exact (rework_beyond_limit_lost hadmitted rfl (.none rfl) hrework hlimit).1

/-- The hand-back of the second approval would open a second round: it leaves no trace of an end. -/
theorem exceeded_round_rolled_back : (engine oneRoundService).Reachable atSecond ∧ atSecond.length = 1 ∧
    ∀ r ∈ atSecond, Admitted handBack r second (Sample.approval "b") ∧
      (decideAdvance oneRoundService.cel r.snapshot.nodes r.snapshot.transitions r.inst.context "b" .returned).1 =
        .rework "a" (some "manager") ∧
      oneRoundService.effectiveLimit r.snapshot < r.maxRound + 1 ∧
      ¬ (rowsAfter r ((oneRoundService.signal 9 handBack).run (exec (Store.env [] (Supply.nth 2) r.inst))
        ⟨r, 0⟩)).EndedByError := by
  have hrows : ∀ r ∈ atSecond, r.snapshot = oneRound ∧ Admitted handBack r second (Sample.approval "b") ∧
      oneRoundService.effectiveLimit r.snapshot < r.maxRound + 1 ∧
      ¬ (rowsAfter r ((oneRoundService.signal 9 handBack).run (exec (Store.env [] (Supply.nth 2) r.inst))
        ⟨r, 0⟩)).EndedByError := by decide +kernel
  refine ⟨reachable_played .., by decide +kernel, fun r hr => ?_⟩
  obtain ⟨hsnapshot, hadmitted, hlimit, hnot⟩ := hrows r hr
  refine ⟨hadmitted, ?_, hlimit, hnot⟩
  rw [hsnapshot]
  rfl

end Fusions.Hetuflow
