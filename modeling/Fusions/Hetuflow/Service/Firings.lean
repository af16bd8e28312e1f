import Fusions.Hetuflow.Service.Log

/-! What follows a join that fired: the outcome of its APPROVED edge, applied and on record. -/
namespace Fusions.Hetuflow
open Fusions.Library

/-- The event that an applied outcome leaves. -/
def EventRow.records (e : EventRow) (round : Int) : AdvanceOutcome → Prop
  | .advance target _ =>
    e.int "round" = some round ∧
      (e.eventType = .activityScheduled ∧ e.str "activity_definition_id" = some target ∨
        e.eventType = .branchReachedJoin ∧ e.str "join_node" = some target)
  | .advanceMulti targets =>
    e.int "round" = some round ∧
      (e.eventType = .parallelSplitScheduled ∧ e.branchTargets = some (targets.map ParallelTarget.nodeId) ∨
        e.eventType = .forEachFannedOut ∧ e.int "branch_count" = some (targets.length : Int))
  | .complete result => e.eventType = .completed ∧ e.str "result" = some result.asStr
  | .rework target _ => e.eventType = .returnedToRework ∧ e.str "rework_target" = some target
  | .error => e.eventType = .errored

instance (e : EventRow) (round : Int) : (outcome : AdvanceOutcome) → Decidable (e.records round outcome)
  | .advance _ _ => inferInstanceAs (Decidable (_ ∧ _))
  | .advanceMulti _ => inferInstanceAs (Decidable (_ ∧ _))
  | .complete _ => inferInstanceAs (Decidable (_ ∧ _))
  | .rework _ _ => inferInstanceAs (Decidable (_ ∧ _))
  | .error => inferInstanceAs (Decidable (_ = _))

/-- After each join that fired, the outcome of its APPROVED edge has been applied in the same round. -/
def Continued (cel : Cel) (s : DefinitionSnapshot) (log : List EventRow) : Prop :=
  ∀ pre e post, log = pre ++ e :: post → ∀ join round, e.firesJoin join round = true →
    ∃ x ∈ post, ∃ context, x.records round (decideAdvance cel s.nodes s.transitions context join .approved).1

namespace Continued
variable {cel : Cel} {s : DefinitionSnapshot} {log new : List EventRow}

theorem append (h : Continued cel s log) (k : Continued cel s new) : Continued cel s (log ++ new) := by
  intro pre e post heq join round he
  rcases List.append_eq_append_iff.1 heq with ⟨u, rfl, hu⟩ | ⟨u, rfl, hu⟩
  · exact k u e post hu join round he
  · cases u with
    | nil => exact k [] e post hu.symm join round he
    | cons y u =>
      obtain ⟨rfl, rfl⟩ := List.cons.inj hu
      obtain ⟨x, hx, context, hrec⟩ := h pre _ u rfl join round he
      exact ⟨x, List.mem_append_left _ hx, context, hrec⟩

theorem cons {e : EventRow} (h : Continued cel s log)
    (he : ∀ join round, e.firesJoin join round = true → ∃ x ∈ log, ∃ context,
      x.records round (decideAdvance cel s.nodes s.transitions context join .approved).1) :
    Continued cel s (e :: log) := by
  intro pre y post heq join round hy
  cases pre with
  | nil =>
    obtain ⟨rfl, rfl⟩ := List.cons.inj heq
    exact he join round hy
  | cons z pre =>
    obtain ⟨rfl, hrest⟩ := List.cons.inj heq
    exact h pre y post hrest join round hy

theorem of_none (h : ∀ e ∈ new, (e.eventType != .parallelJoinSatisfied) = true) : Continued cel s new := by
  intro pre e post heq join round he
  have hne := h e (by rw [heq]; simp)
  simp only [EventRow.firesJoin, Bool.and_eq_true, beq_iff_eq] at he
  simp [he.1.1] at hne

end Continued

/-- A step whose new events continue after each join that fires. -/
def Continues (cel : Cel) (r r' : InstanceRows) : Prop :=
  ∃ new, r'.events = r.events ++ new ∧ Continued cel r.snapshot new

theorem Continues.trans {cel : Cel} {r₁ r₂ r₃ : InstanceRows} (hsnapshot : r₂.snapshot = r₁.snapshot)
    (h : Continues cel r₁ r₂) (k : Continues cel r₂ r₃) : Continues cel r₁ r₃ := by
  obtain ⟨new, hnew, hcont⟩ := h
  obtain ⟨new', hnew', hcont'⟩ := k
  rw [hsnapshot] at hcont'
  exact ⟨new ++ new', by rw [hnew', hnew, List.append_assoc], hcont.append hcont'⟩

theorem Adds.continues {cel : Cel} {r r' : InstanceRows} (h : Adds (· != .parallelJoinSatisfied) r r') :
    Continues cel r r' := by
  obtain ⟨new, hnew, hall⟩ := h
  exact ⟨new, hnew, .of_none hall⟩

section
variable {svc : WorkflowService} {env : Env} {ctx : InstanceCtx} {source : ActivityInstance} {round : Int}

/-- A join that fires, and the event of what it skips. -/
theorem fire_events (r : InstanceRows) (now : Time) (join : WorkflowNode) (round arrived expected : Int)
    (exclude : Option Uuid) :
    ∃ skips, (r.fire now join round arrived expected exclude).events = r.events ++
        (⟨r.nextSeq, .parallelJoinSatisfied, joinSatisfiedPayload join.id arrived expected round, none, now⟩ ::
          skips) ∧
      ∀ e ∈ skips, (e.eventType != .parallelJoinSatisfied) = true := by
  have hskip : Adds (· != .parallelJoinSatisfied)
      (r.log now .parallelJoinSatisfied (joinSatisfiedPayload join.id arrived expected round) none)
      (r.fire now join round arrived expected exclude) := by
    unfold InstanceRows.fire
    dsimp only
    split
    · exact .skipRemaining _ now join _ rfl
    · exact .same rfl
  obtain ⟨skips, hskips, hall⟩ := hskip
  exact ⟨skips, by rw [hskips]; simp [InstanceRows.log, InstanceRows.appendEvent], hall⟩

/-- One event on record among others, none of which is a firing join. -/
private theorem on_record {cel : Cel} {outcome : AdvanceOutcome} {r r₀ r₁ r' : InstanceRows} {x : EventRow}
    (h₀ : Adds (· != .parallelJoinSatisfied) r r₀) (hx : r₁.events = r₀.events ++ [x])
    (hne : (x.eventType != .parallelJoinSatisfied) = true) (hrec : x.records round outcome)
    (h₁ : Adds (· != .parallelJoinSatisfied) r₁ r') :
    ∃ new, r'.events = r.events ++ new ∧ Continued cel r.snapshot new ∧ ∃ x ∈ new, x.records round outcome := by
  obtain ⟨new₀, hnew₀, hall₀⟩ := h₀
  obtain ⟨new₁, hnew₁, hall₁⟩ := h₁
  refine ⟨new₀ ++ x :: new₁, by rw [hnew₁, hx, hnew₀]; simp, .of_none fun e he => ?_, x, by simp, hrec⟩
  rcases List.mem_append.1 he with he | he
  · exact hall₀ e he
  · rcases List.mem_cons.1 he with rfl | he
    · exact hne
    · exact hall₁ e he

private theorem Reaches.on_record {cel : Cel} {outcome : AdvanceOutcome} {trace : ResolveTrace}
    {r r₁ : InstanceRows} {join : WorkflowNode} {exclude : Option Uuid}
    (h : Reaches env ctx source round outcome trace r join exclude r₁) :
    ∃ new, r₁.events = r.events ++ new ∧ Continued cel r.snapshot new ∧ ∃ x ∈ new, x.records round outcome := by
  cases h with
  | arrive hjoin _ =>
    refine Hetuflow.on_record (Adds.passMerges r env.now source.activityDefinitionId round _ rfl) rfl rfl ?_ (.same rfl)
    rw [← (InstanceCtx.node_ok hjoin).2]
    exact ⟨rfl, .inr ⟨rfl, rfl⟩⟩
  | emptyFanOut htrace _ =>
    refine Hetuflow.on_record (Adds.passMerges r env.now source.activityDefinitionId round _ rfl) rfl ?_ ?_ (.same rfl)
    · simp [fanOutMarker, htrace]
    · simp only [fanOutMarker, htrace]
      exact ⟨rfl, .inr ⟨rfl, rfl⟩⟩

/-- An applied outcome leaves its event, and continues after each join that fires on the way. -/
theorem Applied.continues {outcome : AdvanceOutcome} {trace : ResolveTrace} {r r' : InstanceRows}
    (h : Applied env ctx source round svc outcome trace r r') (hsnapshot : ctx.snapshot = r.snapshot) :
    ∃ new, r'.events = r.events ++ new ∧ Continued svc.cel r.snapshot new ∧ ∃ x ∈ new, x.records round outcome := by
  induction h with
  | @schedule target role trace r r₁ node row hnode _ hsched =>
    refine on_record (Adds.passMerges r env.now source.activityDefinitionId round _ rfl) hsched.events rfl ?_
      (.same (pointTo_events ..))
    rw [← (InstanceCtx.node_ok hnode).2]
    exact ⟨rfl, .inl ⟨rfl, rfl⟩⟩
  | @fan targets trace r r₁ rows _ hbranches =>
    refine on_record (Adds.passMerges r env.now source.activityDefinitionId round _ rfl) rfl ?_ ?_
      (hbranches.adds rfl)
    · cases htrace : trace.forEachFanOut <;> simp [fanOutMarker, htrace]
    · cases htrace : trace.forEachFanOut with
      | none =>
        simp only [fanOutMarker, htrace]
        exact ⟨rfl, .inl ⟨rfl, branchTargets_split ..⟩⟩
      | some fan =>
        simp only [fanOutMarker, htrace]
        exact ⟨rfl, .inr ⟨rfl, rfl⟩⟩
  | wait hreach _ _ => exact hreach.on_record
  | @fire outcome trace r r₁ r₂ join exclude arrived expected hreach _ _ _ ih =>
    obtain ⟨new, hnew, hcont, x, hx, hrec⟩ : ∃ new, r₁.events = r.events ++ new ∧ Continued svc.cel r.snapshot new ∧
      ∃ x ∈ new, x.records round outcome := hreach.on_record
    obtain ⟨new₂, hnew₂, hcont₂, y, hy, hrec₂⟩ := ih (by rw [fire_snapshot, hreach.rows.2.1]; exact hsnapshot)
    rw [fire_snapshot, hreach.rows.2.1] at hcont₂
    obtain ⟨skips, hskips, hnone⟩ := fire_events r₁ env.now join round arrived expected exclude
    refine ⟨new ++ (⟨r₁.nextSeq, .parallelJoinSatisfied, joinSatisfiedPayload join.id arrived expected round, none,
      env.now⟩ :: (skips ++ new₂)), ?_, hcont.append (.cons ((Continued.of_none hnone).append hcont₂) ?_),
      x, by simp [hx], hrec⟩
    · rw [hnew₂, hskips, hnew]
      simp
    · intro j n hfires
      have hfired := firesJoin_fired r₁.nextSeq env.now join.id arrived expected round
      simp only [EventRow.firesJoin, Bool.and_eq_true, beq_iff_eq] at hfires hfired
      obtain rfl : join.id = j := Option.some.inj (hfired.1.2.symm.trans hfires.1.2)
      obtain rfl : round = n := Option.some.inj (hfired.2.symm.trans hfires.2)
      exact ⟨y, by simp [hy], ctx.context, by rw [← hsnapshot]; exact hrec₂⟩
  | complete _ hr₁ _ =>
    subst hr₁
    exact on_record (Adds.passMerges _ _ _ _ _ rfl) rfl rfl ⟨rfl, rfl⟩ (.same rfl)
  | @rework target role trace r r₁ node row _ _ hnode hsched =>
    refine on_record ((Adds.passMerges r env.now source.activityDefinitionId round _ rfl).trans (hsched.adds rfl))
      rfl rfl ?_ (.same rfl)
    rw [← (InstanceCtx.node_ok hnode).2]
    exact ⟨rfl, rfl⟩
  | @error trace r reason =>
    refine on_record ((Adds.passMerges r env.now source.activityDefinitionId round _ rfl).trans
      (.same (errorOut_events _))) rfl rfl ?_ (.same rfl)
    exact (rfl : EventType.errored = .errored)

/-- A call fires no join, or only in the outcome it applies. -/
theorem Effect.applies {call : Call} {r r' : InstanceRows} (h : Effect svc env call r r') (w : WellFormed svc r) :
    Adds (· != .parallelJoinSatisfied) r r' ∨
      ∃ ctx source round outcome trace r₀, Adds (· != .parallelJoinSatisfied) r r₀ ∧ Keeps svc r r₀ ∧
        ctx.snapshot = r₀.snapshot ∧ (1 ≤ round ∧ round ≤ frameworkMaxRound) ∧
        Applied env ctx source round svc outcome trace r₀ r' := by
  cases h with
  | nothing => exact .inl (.same rfl)
  | assignee => exact .inl (.one rfl rfl)
  | @advance cmd _ r₁ _ row node ctx _ _ _ hrow _ _ _ hctx happly =>
    have hwritten : Adds (· != .parallelJoinSatisfied) r r₁ := by
      cases hctx with
      | none => exact .same rfl
      | merged => exact .one rfl rfl
    have hkeeps : Keeps svc r _ := hctx.keeps.trans (.resolve r₁ env.now cmd (row.intoModel r.inst.id))
    exact .inr ⟨_, _, _, _, _, _, hwritten.trans (.resolve _ _ _ _ rfl rfl rfl), hkeeps,
      hctx.snapshot.trans hkeeps.evolves.snapshot.symm, w.rounds row hrow, happly⟩
  | @reenter _ key _ r₁ _ _ _ row _ _ _ _ _ _ hsched =>
    have hre : Adds (· != .parallelJoinSatisfied) r (r.reactivate env.now (r.maxRound + 1) key) := .one rfl rfl
    exact .inl ((hre.trans (hsched.adds rfl)).trans (.same (pointTo_events ..)))
  | timerGone => exact .inl (.same rfl)
  | reminder => exact .inl ((Adds.timerFired _ _ _ _ _ rfl).trans (.same (enqueueOutbox_events ..)))
  | escalationGone => exact .inl (.timerFired _ _ _ _ _ rfl)
  | @escalated t r row node toRole payload =>
    have hfired : Adds (· != .parallelJoinSatisfied) r (r.timerFired env.now t row.id node.id) := .timerFired _ _ _ _ _ rfl
    exact .inl ((hfired.trans (.one rfl rfl)).trans (.same (enqueueOutbox_events ..)))
  | @timedOut t r _ row node _ _ _ hrow _ _ _ happly =>
    have hfired : Adds (· != .parallelJoinSatisfied) r (r.timerFired env.now t row.id node.id) := .timerFired _ _ _ _ _ rfl
    have hkeeps : Keeps svc r _ := (Keeps.timerFired r env.now t row.id node.id).trans
      (.timeOutActivity _ env.now row.id)
    exact .inr ⟨_, _, _, _, _, _, hfired.trans (.one rfl rfl), hkeeps, hkeeps.evolves.snapshot.symm,
      w.rounds row hrow, happly⟩
  | @delivered _ _ row hrow _ _ _ happly =>
    have hkeeps : Keeps svc r _ := .completeActivity r env.now row.id none 0 none (deliveredPayload row.id)
    exact .inr ⟨_, _, _, _, _, _, .one rfl rfl, hkeeps, hkeeps.evolves.snapshot.symm, w.rounds row hrow, happly⟩
  | callback => exact .inl (.same rfl)
  | deadLetter => exact .inl (.one rfl rfl)

/-- Every call continues after each join that fires in it. -/
theorem Effect.continues {call : Call} {r r' : InstanceRows} (h : Effect svc env call r r') (w : WellFormed svc r) :
    Continues svc.cel r r' := by
  rcases h.applies w with hadds | ⟨ctx, source, round, outcome, trace, r₀, hadds, hkeeps, hctx, -, happly⟩
  · exact hadds.continues
  · obtain ⟨new, hnew, hcont, -⟩ := happly.continues hctx
    exact hadds.continues.trans hkeeps.evolves.snapshot ⟨new, hnew, hcont⟩

/-- In a reachable store every join that fired was continued. -/
theorem continued_of_reachable {store : Store} (h : (engine svc).Reachable store) :
    ∀ r ∈ store, Continued svc.cel r.snapshot r.events := by
  refine rows_invariant (fun env supply cmd r hstarted => ?_) (fun env call r r' w hcont heffect => ?_) h
  · obtain ⟨entryId, entryRole, node, row, r₁, -, -, hsched, rfl⟩ := hstarted.rows
    have hbase : Adds (· != .parallelJoinSatisfied) (insertedRows supply cmd) ((insertedRows supply cmd).log env.now
      .started (startedPayload cmd (svc.definitionHash cmd.snapshot)) none) := .log _ _ _ _ rfl
    obtain ⟨new, hnew, hall⟩ := (hbase.trans (hsched.adds rfl)).trans (.same (pointTo_events r₁ row.id))
    rw [hnew]
    exact .of_none hall
  · obtain ⟨new, hnew, hnext⟩ := heffect.continues w
    rw [hnew, heffect.writes.snapshot]
    exact hcont.append hnext

end
end Fusions.Hetuflow
