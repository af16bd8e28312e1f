import Fusions.Hetuflow.Service.Firings
import Fusions.Hetuflow.Service.Resolution
import Fusions.Hetuflow.Contract.Tenants

/-! Instances that have ended: when nothing of them is under way. -/
namespace Fusions.Hetuflow
open Fusions.Library

/-- No activity is active and no timer is pending. -/
def InstanceRows.AtRest (r : InstanceRows) : Prop :=
  (∀ a ∈ r.activities, a.status ≠ .active) ∧ ∀ t ∈ r.timers, t.status ≠ .pending

instance (r : InstanceRows) : Decidable r.AtRest := inferInstanceAs (Decidable (_ ∧ _))

/-- A join has fired whose strategy skips the activities that are left. -/
def EventRow.firesSkipping (s : DefinitionSnapshot) (e : EventRow) : Bool :=
  e.eventType == .parallelJoinSatisfied && ((e.str "join_node").bind (findNode s.nodes)).any fun n =>
    (n.joinStrategy.getD .waitAll).skipsRemainingOnSatisfaction

/-- The call ends the instance while a second activity is active, and no join skips it. -/
def EndsAmid (r r' : InstanceRows) : Prop :=
  r.inst.status.isTerminal = false ∧ r'.inst.status.isTerminal = true ∧
    1 < r.activities.countP (fun a => a.status == .active) ∧
    ∀ e ∈ r'.events.drop r.events.length, e.firesSkipping r.snapshot = false

instance (r r' : InstanceRows) : Decidable (EndsAmid r r') := inferInstanceAs (Decidable (_ ∧ _ ∧ _ ∧ _))

section
variable {svc : WorkflowService} {env : Env} {ctx : InstanceCtx} {source : ActivityInstance} {round : Int}
  {r r' : InstanceRows}

private theorem not_skipping {p : EventType → Bool} (hp : p .parallelJoinSatisfied = false) (h : Adds p r r')
    (s : DefinitionSnapshot) :
    ∃ new, r'.events = r.events ++ new ∧ ∀ e ∈ new, e.firesSkipping s = false := by
  obtain ⟨new, hnew, hall⟩ := h
  refine ⟨new, hnew, fun e he => ?_⟩
  cases hfires : e.firesSkipping s with
  | false => rfl
  | true =>
    simp only [EventRow.firesSkipping, Bool.and_eq_true, beq_iff_eq] at hfires
    have htype := hall e he
    rw [hfires.1, hp] at htype
    cases htype

/-- What is active after a join has fired was active before, and the join did not skip it. -/
private theorem survives_fire {s : DefinitionSnapshot} {join : WorkflowNode} {arrived expected : Int}
    {exclude : Option Uuid} {now : Time} {a : ActivityRow} (hjoin : findNode s.nodes join.id = some join)
    (hids : ∀ a ∈ r.activities, a.id ≠ Uuid.nil) (hsource : ∀ a ∈ r.activities, a.status = .active → a.id ≠ source.id)
    (hexclude : exclude = some source.id ∨ exclude = none)
    (ha : a ∈ (r.fire now join round arrived expected exclude).activities) (hactive : a.status = .active) :
    ∃ new, (r.fire now join round arrived expected exclude).events = r.events ++ new ∧
      ∀ e ∈ new, e.firesSkipping s = false := by
  have hmem := status_of_mem_fire ha hactive
  obtain ⟨skips, hskips, hnone⟩ := fire_events r now join round arrived expected exclude
  refine ⟨_, hskips, List.forall_mem_cons.2 ⟨?_, fun e he => ?_⟩⟩
  · rw [fire_activities] at ha
    have hstr : EventRow.str ⟨r.nextSeq, .parallelJoinSatisfied, joinSatisfiedPayload join.id arrived expected round,
      none, now⟩ "join_node" = some join.id := rfl
    simp only [EventRow.firesSkipping, hstr, Option.bind_some, hjoin, Option.any_some]
    cases hskip : (join.joinStrategy.getD .waitAll).skipsRemainingOnSatisfaction with
    | false => rfl
    | true =>
      rw [if_pos hskip] at ha
      obtain ⟨b, hb, rfl⟩ := List.mem_map.1 ha
      split at hactive
      · cases hactive
      · next hother =>
        rw [ActivityRow.isOtherActive_iff] at hother
        have hid : b.id = exclude.getD Uuid.nil := Classical.byContradiction fun hne => hother ⟨hne, hactive⟩
        rcases hexclude with rfl | rfl
        · exact absurd hid (hsource b hb hactive)
        · exact absurd hid (hids b hb)
  · have hne := hnone e he
    simp only [EventRow.firesSkipping, bne_iff_ne, ne_eq] at hne ⊢
    simp [hne]

/-- Where an applied outcome ends the instance, what is still active was so before, and no join skipped it. -/
theorem Applied.survivors {outcome : AdvanceOutcome} {trace : ResolveTrace}
    (h : Applied env ctx source round svc outcome trace r r') (hids : ∀ a ∈ r.activities, a.id ≠ Uuid.nil)
    (hsource : ∀ a ∈ r.activities, a.status = .active → a.id ≠ source.id)
    (hlive : r.inst.status.isTerminal = false) (hend : r'.inst.status.isTerminal = true) {a : ActivityRow}
    (ha : a ∈ r'.activities) (hactive : a.status = .active) :
    a ∈ r.activities ∧ ∃ new, r'.events = r.events ++ new ∧ ∀ e ∈ new, e.firesSkipping ctx.snapshot = false := by
  induction h with
  | @schedule _ _ trace r r₁ node row _ _ hsched =>
    have hs : (r₁.pointTo row.id).inst.status = r.inst.status := by
      rw [pointTo_status, hsched.inst, passMerges_inst]
    rw [hs, hlive] at hend
    cases hend
  | @fan targets trace r _ _ _ hbranches =>
    have hs : (fanOutRows env source round trace targets r).inst.status = r.inst.status := by
      simp [fanOutRows, InstanceRows.log, InstanceRows.appendEvent, InstanceRows.clearCurrent,
        InstanceRows.updateInstance]
    rw [hbranches.inst, hs, hlive] at hend
    cases hend
  | @wait _ _ _ r₁ _ _ _ _ hreach _ _ =>
    have hs : r₁.clearCurrent.inst.status = r₁.inst.status := rfl
    rw [hs, hreach.rows.2.2.1, hlive] at hend
    cases hend
  | @fire _ _ r r₁ _ join exclude arrived expected hreach _ _ _ ih =>
    obtain ⟨hactivities, -, hstatus, hexclude⟩ := hreach.rows
    have hids₁ : ∀ a ∈ r₁.activities, a.id ≠ Uuid.nil := by rwa [hactivities]
    have hsource₁ : ∀ a ∈ r₁.activities, a.status = .active → a.id ≠ source.id := by rwa [hactivities]
    have hfired : ∀ a ∈ (r₁.fire env.now join round arrived expected exclude).activities,
        ∃ b ∈ r₁.activities, a.id = b.id := by
      intro a ha
      rw [fire_activities] at ha
      split at ha
      · obtain ⟨b, hb, rfl⟩ := List.mem_map.1 ha
        exact ⟨b, hb, by split <;> rfl⟩
      · exact ⟨a, ha, rfl⟩
    obtain ⟨ha₂, new₂, hnew₂, hnone₂⟩ := ih
      (fun a ha => by
        obtain ⟨b, hb, hid⟩ := hfired a ha
        rw [hid]
        exact hids₁ b hb)
      (fun a ha hs => hsource₁ a (status_of_mem_fire ha hs) hs) (by rw [fire_inst, hstatus]; exact hlive) hend ha
    obtain ⟨new, hnew, hnone⟩ := not_skipping (p := (· != .parallelJoinSatisfied)) rfl
      (hreach.adds rfl rfl rfl) ctx.snapshot
    obtain ⟨new₁, hnew₁, hnone₁⟩ := survives_fire hreach.join hids₁ hsource₁ hexclude ha₂ hactive
    refine ⟨hactivities ▸ status_of_mem_fire ha₂ hactive, new ++ (new₁ ++ new₂), ?_, fun e he => ?_⟩
    · rw [hnew₂, hnew₁, hnew]
      simp only [List.append_assoc]
    · rcases List.mem_append.1 he with he | he
      · exact hnone e he
      · exact (List.mem_append.1 he).elim (hnone₁ e) (hnone₂ e)
  | @complete _ trace r r₁ _ _ hr₁ _ =>
    subst hr₁
    have hmerges : Adds (· != .parallelJoinSatisfied) r _ :=
      .passMerges r env.now source.activityDefinitionId round trace.mergesPassed rfl
    refine ⟨?_, not_skipping rfl (hmerges.trans (.one rfl rfl)) _⟩
    simpa [InstanceRows.log, InstanceRows.appendEvent, InstanceRows.finish, InstanceRows.updateInstance] using ha
  | rework => cases hend
  | @error trace r reason =>
    have hmerges : Adds (· != .parallelJoinSatisfied) r _ :=
      .passMerges r env.now source.activityDefinitionId round trace.mergesPassed rfl
    refine ⟨?_, not_skipping rfl ((hmerges.trans (.same (errorOut_events _))).trans (.one rfl rfl)) _⟩
    simpa [InstanceRows.log, InstanceRows.appendEvent] using ha

private theorem one_lt_countP {α : Type} {p : α → Bool} {l : List α} {a b : α} (ha : a ∈ l) (hb : b ∈ l)
    (hne : a ≠ b) (hpa : p a = true) (hpb : p b = true) : 1 < l.countP p := by
  rw [List.countP_eq_length_filter]
  have hfa := List.mem_filter.2 ⟨ha, hpa⟩
  have hfb := List.mem_filter.2 ⟨hb, hpb⟩
  refine Classical.byContradiction fun hlen => ?_
  obtain ⟨x, hx⟩ := List.length_eq_one_iff.1 (Nat.le_antisymm (Nat.not_lt.1 hlen) (List.length_pos_of_mem hfa))
  rw [hx, List.mem_singleton] at hfa hfb
  exact hne (hfa.trans hfb.symm)

private theorem Quiet.idle (h : Quiet r r') (hidle : ∀ a ∈ r.activities, a.status ≠ .active) :
    ∀ a ∈ r'.activities, a.status ≠ .active := by
  intro a ha hactive
  have hmem : (a.id, a.status) ∈ r'.activities.map fun a => (a.id, a.status) := List.mem_map_of_mem ha
  rw [h.activities] at hmem
  obtain ⟨b, hb, heq⟩ := List.mem_map.1 hmem
  exact hidle b hb ((Prod.mk.inj heq).2.trans hactive)

/-- A call that resolves an activity and ends the instance either leaves nothing active, or it ends amid others. -/
private theorem Resolves.idle {call : Call} {row : ActivityRow} {r₀ : InstanceRows} (w : WellFormed svc r)
    (h : Resolves svc env call r row r₀ r') (hend : r'.inst.status.isTerminal = true) (hok : ¬ EndsAmid r r') :
    ∀ a ∈ r'.activities, a.status ≠ .active := by
  intro a ha hactive
  obtain ⟨ctx, outcome, trace, hctx, -, happly⟩ := h.applied
  have hlive : r₀.inst.status.isTerminal = false := by
    cases h.resumes with
    | resumed _ _ hs => rw [hs]; rfl
    | same _ hs => rw [hs]; exact h.live
  obtain ⟨ha₀, new, hnew, hnone⟩ := happly.survivors (h.keeps.wellFormed w).id_ne_nil
    (fun b hb hs => (h.others b hb hs).2) hlive hend ha hactive
  obtain ⟨before, hbefore, hnone₀⟩ := not_skipping rfl h.adds r.snapshot
  obtain ⟨hmem, hne⟩ := h.others a ha₀ hactive
  refine hok ⟨h.live, hend, one_lt_countP hmem h.row_mem (fun heq => hne (congrArg _ heq)) (by simpa using hactive)
    (by simpa using h.row_active), fun e he => ?_⟩
  rw [hnew, hbefore, List.append_assoc, List.drop_left] at he
  rcases List.mem_append.1 he with he | he
  · exact hnone₀ e he
  · have hfires := hnone e he
    rwa [hctx, h.keeps.evolves.snapshot] at hfires

private theorem idle_step {call : Call} (w : WellFormed svc r)
    (hidle : r.inst.status.isTerminal = true → ∀ a ∈ r.activities, a.status ≠ .active)
    (heffect : Effect svc env call r r') (hok : ¬ EndsAmid r r') (hend : r'.inst.status.isTerminal = true) :
    ∀ a ∈ r'.activities, a.status ≠ .active := by
  rcases heffect.resolves with hquiet | hreentered | ⟨row, r₀, hresolves⟩
  · exact hquiet.idle (hidle (hquiet.status ▸ hend))
  · rw [hreentered.after] at hend
    cases hend
  · exact hresolves.idle w hend hok

variable {id : Uuid} {store : Store}

theorem idle_of_reachable (h : (engine svc).ReachableIf (OnInstance id fun r _ r' => ¬ EndsAmid r r') store)
    (hr : r ∈ store) (hid : r.inst.id = id) (hend : r.inst.status.isTerminal = true) :
    ∀ a ∈ r.activities, a.status ≠ .active :=
  instance_invariant (P := fun r => r.inst.status.isTerminal = true → ∀ a ∈ r.activities, a.status ≠ .active)
    (fun _ _ _ _ hstarted hend => by
      rw [hstarted.status] at hend
      cases hend)
    (fun _ _ _ _ w hidle heffect hok => idle_step w hidle heffect hok) h r hr hid hend

/-- If no call ends the instance while a second activity is active, then it is at rest whenever it has ended,
and a resubmit that brings it back leaves only its new entry activity active. -/
theorem ended_at_rest (h : (engine svc).ReachableIf (OnInstance id fun r _ r' => ¬ EndsAmid r r') store)
    (hr : r ∈ store) (hid : r.inst.id = id) :
    (r.inst.status = .completed ∨ r.inst.status = .errored → r.AtRest) ∧
    ∀ others scope key r' store', Commits svc store (.call others r (.resubmit scope key) r') store' → r' = r ∨
      ∃ entryId entryRole row, decideStart r.snapshot.nodes = some (entryId, entryRole) ∧
        r'.activities = r.activities ++ [row] ∧ row.activityDefinitionId = entryId ∧
        ∀ a ∈ r'.activities, a.status = .active ↔ a = row := by
  have w := wellFormed_of_reachable h
  constructor
  · intro hend
    have hidle := idle_of_reachable h hr hid (by rcases hend with hs | hs <;> rw [hs] <;> rfl)
    refine ⟨hidle, fun t ht hpending => ?_⟩
    obtain ⟨a, ha, -, hactive⟩ := (w.rows r hr).timers t ht
    exact hidle a ha (hactive hpending)
  · intro others scope key r' store' hstep
    rcases hstep.cases w with ⟨cmd, hop, -⟩ | ⟨cmd, supply, r', hop, -⟩ |
      ⟨pre, x, call, x', post, supply, hop, -, -, heffect⟩
    · cases hop
    · cases hop
    · cases hop
      rcases heffect.resubmit with rfl | hreentered
      · exact .inl rfl
      · obtain ⟨entryId, entryRole, row, hentry, hrows, hnode, hactive, -⟩ := hreentered.entry
        refine .inr ⟨entryId, entryRole, row, hentry, hrows, hnode, fun a ha => ⟨fun hs => ?_, fun heq => ?_⟩⟩
        · rw [hrows] at ha
          rcases List.mem_append.1 ha with ha | ha
          · exact absurd hs (idle_of_reachable h hr hid (by rw [hreentered.before]; rfl) a ha)
          · exact List.mem_singleton.1 ha
        · rw [heq]
          exact hactive

end

/-- A split into two approvals, one of which is rejected. -/
def rejectedBranch : Store :=
  played (Sample.service "e279cc01486c9312b061ffcb92a891438ccc2ab2182b09582072aef9e3d8d9df") 9
    [Sample.start (Sample.definition [Sample.approval "a", Sample.node "s" (.parallelSplit ["x", "y"]),
      Sample.approval "x", Sample.approval "y", Sample.node "j" (.parallelJoin .waitAll)]
      [Sample.approved "a" "s", Sample.approved "x" "j", Sample.approved "y" "j", Sample.approved "j" "end"]) none,
    Sample.approve (Sample.uuid 0 1), Sample.signal .rejected none (Sample.uuid 1 0)]

/-- The rejection completes the instance, and the other branch stays active. -/
theorem rejected_branch_active : (engine (Sample.service
      "e279cc01486c9312b061ffcb92a891438ccc2ab2182b09582072aef9e3d8d9df")).Reachable rejectedBranch ∧
    ∃ r ∈ rejectedBranch, r.inst.status = .completed ∧ ¬ r.AtRest ∧
      (r.activeRows.map fun a => a.activityDefinitionId) = ["y"] :=
  ⟨reachable_played .., by decide⟩

/-- One approval with a reminder, handed back without a rework target. -/
theorem ended_at_rest_returned :
    let store := played oneApproval 9 [Sample.start otherTenant.snapshot none,
      Sample.signal .returned none (Sample.uuid 0 1)]
    store.length = 1 ∧ ∀ r ∈ store, r.inst.status = .completed ∧ r.AtRest := by
  intro store
  have hrun : (engine oneApproval).ReachableIf (OnInstance (Sample.uuid 0 0) fun r _ r' => ¬ EndsAmid r r') store :=
    reachableIf_played 9 _ (by decide)
  have hend : ∀ r ∈ store, r.inst.id = Sample.uuid 0 0 ∧ r.inst.status = .completed := by decide
  exact ⟨by decide, fun r hr => ⟨(hend r hr).2, (ended_at_rest hrun hr (hend r hr).1).1 (.inl (hend r hr).2)⟩⟩

end Fusions.Hetuflow
