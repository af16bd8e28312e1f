import Fusions.Hetuflow.Runtime.Routes
import Fusions.Hetuflow.Service.Arrivals
import Fusions.Hetuflow.Service.Firings
import Fusions.Hetuflow.Service.Script

/-! The join contract: which joins fire once their branches are done, and how often. -/
namespace Fusions.Hetuflow
open Fusions.Library

section
variable {cel : Cel} {s : DefinitionSnapshot}

/-- A branch that passes the check completes into a join. -/
private theorem completionTarget_of_branch {splitId branch target : String}
    (h : validateSplitBranch s.nodes s.transitions splitId branch = .ok target) :
    s.completionTarget branch = some target ∧
      ∃ join, findNode s.nodes target = some join ∧ join.kind = .parallelJoin := by
  unfold validateSplitBranch at h
  split at h
  · cases h
  next node hnode =>
  split at h
  · cases h
  next signal hsignal =>
  obtain ⟨_, -, h⟩ := bind_ok h
  split at h
  · cases h
  next t ht =>
  split at h
  · next hjoin =>
    cases h
    refine ⟨by simp [DefinitionSnapshot.completionTarget, hnode, hsignal, ht], ?_⟩
    obtain ⟨join, hfind, hkind⟩ := (Option.any_eq_true _ _).1 hjoin
    exact ⟨join, hfind, by simpa using hkind⟩
  · cases h

private theorem completionTargets_of_branches {splitId : String} {target : String} {targets : List String}
    (h : validateSplitBranches s.nodes s.transitions splitId (some target) targets = .ok ()) :
    ∀ b ∈ targets, s.completionTarget b = some target := by
  induction targets with
  | nil => simp
  | cons b rest ih =>
    obtain ⟨found, hbranch, h⟩ := bind_ok h
    dsimp only at h
    split at h
    · next heq =>
      obtain rfl : target = found := by simpa using heq
      intro x hx
      rcases List.mem_cons.1 hx with rfl | hx
      · exact (completionTarget_of_branch hbranch).1
      · exact ih h x hx
    · cases h

/-- The branches of a split of a valid definition converge on one join. -/
theorem converges_of_valid (h : validateDefinition cel s.nodes s.transitions = .ok ()) {split : WorkflowNode}
    {targets : List String} (hsplit : split ∈ s.nodes) (htargets : split.parallelSplit = some targets) :
    2 ≤ targets.length ∧ ∃ id join, findNode s.nodes id = some join ∧ join.kind = .parallelJoin ∧
      ∀ b ∈ targets, s.completionTarget b = some id := by
  have hnode := (published_of_valid h).node split hsplit
  unfold validateNode at hnode
  obtain ⟨_, -, hnode⟩ := bind_ok hnode
  simp only [kind_of_parallelSplit htargets, validateParallelSplit, htargets] at hnode
  obtain ⟨_, hlen, hbranches⟩ := bind_ok hnode
  have hlen : 2 ≤ targets.length := Nat.le_of_not_lt (of_decide_eq_false (reject_ok hlen))
  refine ⟨hlen, ?_⟩
  cases targets with
  | nil => simp at hlen
  | cons b rest =>
    obtain ⟨target, hbranch, hrest⟩ := bind_ok hbranches
    obtain ⟨htarget, join, hfind, hjoin⟩ := completionTarget_of_branch hbranch
    refine ⟨target, join, hfind, hjoin, fun x hx => ?_⟩
    rcases List.mem_cons.1 hx with rfl | hx
    · exact htarget
    · exact completionTargets_of_branches hrest x hx

/-- A node that completes into a join is the source of an edge that the join counts. -/
private theorem mem_incoming_of_completionTarget {b join : String} (h : s.completionTarget b = some join) :
    b ∈ (joinIncoming s.transitions join).map WorkflowTransition.source := by
  simp only [DefinitionSnapshot.completionTarget, Option.bind_eq_bind, Option.bind_eq_some_iff,
    Option.some.injEq] at h
  obtain ⟨node, -, signal, hsignal, t, ht, rfl⟩ := h
  have hsel := List.find?_some ht
  simp only [Bool.and_eq_true, beq_iff_eq] at hsel
  refine List.mem_map.2 ⟨t, List.mem_filter.2 ⟨List.mem_of_find?_eq_some ht, ?_⟩, hsel.1⟩
  have hincoming : isJoinIncomingSignal signal = true := by
    unfold completionSignal at hsignal
    split at hsignal <;> cases hsignal <;> rfl
  simp [hsel.2, hincoming]

/-- What the marker of a for-each fan-out says. -/
theorem forEach_of_announces {e : EventRow} {nodes : List String} {round : Int}
    (h : e.announces s = some (nodes, round)) (ht : e.eventType = .forEachFannedOut) :
    ∃ id node path template join cap count, e.str "for_each_node" = some id ∧ findNode s.nodes id = some node ∧
      node.forEach = some (path, template, join, cap) ∧ e.str "join_node" = some join ∧
      e.int "branch_count" = some count ∧ e.int "round" = some round ∧
      nodes = List.replicate count.toNat template := by
  unfold EventRow.announces at h
  simp only [ht, Option.bind_eq_bind, Option.bind_eq_some_iff] at h
  obtain ⟨id, hid, node, hnode, ⟨path, template, join, cap⟩, hfor, count, hcount, n, hround, h⟩ := h
  split at h
  · next hjoin =>
    obtain ⟨rfl, rfl⟩ := Prod.mk.inj (Option.some.inj h)
    exact ⟨id, node, path, template, join, cap, count, hid, hnode, hfor, hjoin, hcount, hround, rfl⟩
  · cases h

/-- Every for-each fan-out in a log announces itself. -/
theorem announces_of_forEach {r : InstanceRows} (hlog : r.Logged) {e : EventRow} (he : e ∈ r.events)
    (ht : e.eventType = .forEachFannedOut) : ∃ nodes round, e.announces r.snapshot = some (nodes, round) := by
  obtain ⟨pre, post, hevents⟩ := List.append_of_mem he
  obtain ⟨v, post', -, hhead⟩ := heads_of_fanOut (hevents ▸ hlog.entries) (.inr ht)
  cases hhead with
  | fanOut hannounces => exact ⟨_, _, hannounces⟩
  | idle hannounces => exact ⟨_, _, hannounces⟩
  | fired _ hannounces => exact ⟨_, _, hannounces ht⟩

/-- A join that no for-each leads to has no recorded branch count, in any part of the log. -/
private theorem forEachBranchCount_none {r r₁ : InstanceRows} (hlog : r.Logged)
    (hsub : ∀ e ∈ r₁.events, e ∈ r.events) {join : String} {round : Int}
    (hstatic : isForEachJoin r.snapshot.nodes join = false) : r₁.forEachBranchCount join round = .ok none := by
  have hnone : r₁.events.reverse.find? (InstanceRows.isFanOutInto join round) = none := by
    refine List.find?_eq_none.2 fun e he hinto => ?_
    simp only [InstanceRows.isFanOutInto, Bool.and_eq_true, beq_iff_eq] at hinto
    obtain ⟨nodes, n, hannounces⟩ := announces_of_forEach hlog (hsub e (List.mem_reverse.1 he)) hinto.1.1
    obtain ⟨id, node, path, template, j, cap, count, -, hnode, hfor, hjoin, -⟩ :=
      forEach_of_announces hannounces hinto.1.1
    obtain rfl : join = j := Option.some.inj (hinto.1.2.symm.trans hjoin)
    have htrue : isForEachJoin r.snapshot.nodes join = true :=
      List.any_eq_true.2 ⟨node, List.mem_of_find?_eq_some hnode, by simp [hfor]⟩
    rw [hstatic] at htrue
    cases htrue
  unfold InstanceRows.forEachBranchCount
  rw [hnone]

end

section
variable {svc : WorkflowService} {env : Env} {ctx : InstanceCtx} {source : ActivityInstance} {round : Int}

/-- Arrivals are never taken back. -/
private theorem countCompletedBranches_mono {r r' : InstanceRows} (h : Evolves r r') (ids : List String)
    (round : Int) : r.countCompletedBranches ids round ≤ r'.countCompletedBranches ids round := by
  obtain ⟨g, new, hact, haged⟩ := h.activities
  have hle : r.activities.countP (InstanceRows.isArrival ids round) ≤
      (r.activities.map g).countP (InstanceRows.isArrival ids round) := by
    rw [List.countP_map]
    refine List.countP_mono_left fun a ha harrived => ?_
    have hstatus : a.status ≠ .active := by
      simp only [InstanceRows.isArrival, Bool.and_eq_true, beq_iff_eq] at harrived
      rw [harrived.1.1.1]
      simp
    rw [Function.comp_apply, (haged a ha).settled hstatus]
    exact harrived
  unfold InstanceRows.countCompletedBranches
  rw [hact, List.countP_append]
  omega

/-- The counts of an earlier moment that let the join go. -/
def InstanceRows.LetGo (r : InstanceRows) (join : WorkflowNode) (round : Int) : Prop :=
  ∃ r₁ arrived expected, (∀ e ∈ r₁.events, e ∈ r.events) ∧
    (∀ ids, r₁.countCompletedBranches ids round ≤ r.countCompletedBranches ids round) ∧
    JoinCounts r.snapshot r₁ join.id round arrived expected ∧
    (join.joinStrategy.getD .waitAll).isSatisfied arrived expected = true

private theorem LetGo.later {r r' : InstanceRows} {join : WorkflowNode} (h : r.LetGo join round)
    (hevolves : Evolves r r') : r'.LetGo join round := by
  obtain ⟨r₁, arrived, expected, hsub, hle, hcounts, hsat⟩ := h
  refine ⟨r₁, arrived, expected, fun e he => hevolves.event (hsub e he), fun ids => ?_, ?_, hsat⟩
  · exact Int.le_trans (hle ids) (countCompletedBranches_mono hevolves ids round)
  · rw [hevolves.snapshot]
    exact hcounts

/-- Every join of the definition that fired was let go. -/
def InstanceRows.FiresLetGo (r : InstanceRows) (e : EventRow) : Prop :=
  ∀ join n, findNode r.snapshot.nodes join.id = some join → e.firesJoin join.id n = true → r.LetGo join n

private theorem firesLetGo_of_adds {r r' : InstanceRows} (hadds : Adds (· != .parallelJoinSatisfied) r r') :
    ∀ e ∈ r'.events, e ∈ r.events ∨ r'.FiresLetGo e := by
  obtain ⟨new, hnew, hall⟩ := hadds
  intro e he
  rw [hnew] at he
  refine (List.mem_append.1 he).imp_right fun he join n _ hfires => ?_
  have hne := hall e he
  simp only [EventRow.firesJoin, Bool.and_eq_true, beq_iff_eq] at hfires
  simp [hfires.1.1] at hne

private theorem Reaches.join_found {outcome : AdvanceOutcome} {trace : ResolveTrace} {r r₁ : InstanceRows}
    {join : WorkflowNode} {exclude : Option Uuid} (h : Reaches env ctx source round outcome trace r join exclude r₁) :
    findNode ctx.snapshot.nodes join.id = some join := by
  cases h with
  | arrive hnode _ | emptyFanOut _ hnode =>
    obtain ⟨hfind, hid⟩ := InstanceCtx.node_ok hnode
    rw [hid]
    exact hfind

/-- An applied outcome fires only joins that were let go. -/
private theorem Applied.firesLetGo {outcome : AdvanceOutcome} {trace : ResolveTrace} {r r' : InstanceRows}
    (h : Applied env ctx source round svc outcome trace r r') (hsnapshot : ctx.snapshot = r.snapshot)
    (hround : 1 ≤ round ∧ round ≤ frameworkMaxRound) : ∀ e ∈ r'.events, e ∈ r.events ∨ r'.FiresLetGo e := by
  induction h with
  | @schedule target role trace r _ _ _ _ _ hsched =>
    exact firesLetGo_of_adds ((Adds.passMerges r env.now source.activityDefinitionId round _ rfl).trans
      ((hsched.adds rfl).trans (.same (pointTo_events ..))))
  | @fan targets trace r _ _ _ hbranches =>
    refine firesLetGo_of_adds ((Adds.passMerges r env.now source.activityDefinitionId round _ rfl).trans
      ((Adds.one rfl ?_).trans (hbranches.adds rfl)))
    cases htrace : trace.forEachFanOut <;> simp [fanOutMarker, htrace]
  | wait hreach _ _ => exact firesLetGo_of_adds ((hreach.adds rfl rfl rfl).trans (.same rfl))
  | @fire outcome trace r r₁ r₂ join exclude arrived expected hreach hcounts hsat hnext ih =>
    have hfire : Keeps svc r₁ _ := .fire r₁ env.now join round arrived expected exclude
    have hreached : Keeps svc r r₁ := hreach.keeps
    have hsnap := hsnapshot.trans hreached.evolves.snapshot.symm
    have hrest := hnext.keeps (hsnap.trans hfire.evolves.snapshot.symm) hround
    have hlater := hfire.evolves.trans hrest.evolves
    intro e he
    rcases ih (hsnap.trans hfire.evolves.snapshot.symm) e he with he | hnew
    · obtain ⟨skips, hskips, hnone⟩ := fire_events r₁ env.now join round arrived expected exclude
      rw [hskips] at he
      rcases List.mem_append.1 he with he | he
      · refine (firesLetGo_of_adds (hreach.adds rfl rfl rfl) e he).imp_right fun hold j n hfind hfires => ?_
        exact LetGo.later (hold j n (by rw [← hlater.snapshot]; exact hfind) hfires) hlater
      · refine .inr fun j n hfind hfires => ?_
        rcases List.mem_cons.1 he with rfl | he
        · have hfired := firesJoin_fired r₁.nextSeq env.now join.id arrived expected round
          simp only [EventRow.firesJoin, Bool.and_eq_true, beq_iff_eq] at hfires hfired
          have hid : join.id = j.id := Option.some.inj (hfired.1.2.symm.trans hfires.1.2)
          obtain rfl : round = n := Option.some.inj (hfired.2.symm.trans hfires.2)
          obtain rfl : join = j := by
            have hjoin := Reaches.join_found hreach
            rw [hsnap, ← hlater.snapshot, hid, hfind] at hjoin
            exact (Option.some.inj hjoin).symm
          refine LetGo.later ⟨r₁, arrived, expected, fun _ h => h, fun _ => Int.le_refl _, ?_, hsat⟩ hlater
          rw [← hsnap]
          exact hcounts
        · have hne := hnone e he
          simp only [EventRow.firesJoin, Bool.and_eq_true, beq_iff_eq] at hfires
          simp [hfires.1.1] at hne
    · exact .inr hnew
  | @complete result trace r r₁ os _ hr₁ _ =>
    subst hr₁
    exact firesLetGo_of_adds ((Adds.passMerges r env.now source.activityDefinitionId round _ rfl).trans (.one rfl rfl))
  | @rework target role trace r _ _ _ _ _ _ hsched =>
    exact firesLetGo_of_adds (((Adds.passMerges r env.now source.activityDefinitionId round _ rfl).trans
      (hsched.adds rfl)).trans (.one rfl rfl))
  | @error trace r reason =>
    refine firesLetGo_of_adds (((Adds.passMerges r env.now source.activityDefinitionId round _ rfl).trans
      (.same (errorOut_events _))).trans (.one rfl rfl))

/-- In a reachable store every join that fired was let go by the counts of its moment. -/
theorem letGo_of_reachable {store : Store} (h : (engine svc).Reachable store) {r : InstanceRows} (hr : r ∈ store) :
    ∀ e ∈ r.events, r.FiresLetGo e := by
  refine rows_invariant (P := fun r => ∀ e ∈ r.events, r.FiresLetGo e) (fun env supply cmd r hstarted => ?_)
    (fun env call r r' w hall heffect => ?_) h r hr
  · obtain ⟨entryId, entryRole, node, row, r₁, -, -, hsched, rfl⟩ := hstarted.rows
    have hbase : Adds (· != .parallelJoinSatisfied) (insertedRows supply cmd) ((insertedRows supply cmd).log env.now
      .started (startedPayload cmd (svc.definitionHash cmd.snapshot)) none) := .log _ _ _ _ rfl
    intro e he
    refine (firesLetGo_of_adds ((hbase.trans (hsched.adds rfl)).trans (.same (pointTo_events r₁ row.id))) e
      he).resolve_left ?_
    simp [insertedRows]
  · have hlater := (heffect.keeps w).evolves
    have hold : ∀ e ∈ r.events, r'.FiresLetGo e := fun e he join n hfind hfires =>
      LetGo.later (hall e he join n (by rw [← hlater.snapshot]; exact hfind) hfires) hlater
    intro e he
    rcases heffect.applies w with hadds | ⟨ctx, source, round, outcome, trace, r₀, hadds, hkeeps, hctx, hround, happly⟩
    · exact (firesLetGo_of_adds hadds e he).elim (hold e) id
    · have hrest := (happly.keeps hctx hround).evolves
      rcases happly.firesLetGo hctx hround e he with he | hnew
      · rcases firesLetGo_of_adds hadds e he with he | hnew
        · exact hold e he
        · exact fun join n hfind hfires =>
            LetGo.later (hnew join n (by rw [← hrest.snapshot]; exact hfind) hfires) hrest
      · exact hnew

end

section
variable {svc : WorkflowService} {store : Store} {r : InstanceRows} {split join : WorkflowNode}
  {targets : List String} {m : EventRow} {branches : List EventRow} {round : Int}

/-- The counts at a join that no for-each leads to: the completed sources of its edges, out of all of them. -/
private theorem joinCounts_static {r₁ : InstanceRows} {joinId : String} {arrived expected : Int}
    (hcount : r₁.forEachBranchCount joinId round = .ok none)
    (h : JoinCounts r.snapshot r₁ joinId round arrived expected) :
    arrived = r₁.countCompletedBranches ((joinIncoming r.snapshot.transitions joinId).map WorkflowTransition.source)
        round ∧
      expected = (joinIncoming r.snapshot.transitions joinId).length := by
  obtain ⟨dynamic, ids, hdynamic, hexpected, rfl⟩ := h
  rw [hcount] at hdynamic
  cases hdynamic
  simp only [WorkflowService.branchExpectation, Except.ok.injEq, Prod.mk.injEq, List.length_map] at hexpected
  exact ⟨by rw [hexpected.2], hexpected.1.symm⟩

/-- A split's join fires once all branches are accepted, if as many arrivals as the split has branches
satisfy its strategy against the edges into the join; and if nothing else arrived, only then. -/
theorem split_join_fires (h : (engine svc).Reachable store) (hr : r ∈ store) (hsplit : split ∈ r.snapshot.nodes)
    (htargets : split.parallelSplit = some targets) (hjoin : findNode r.snapshot.nodes join.id = some join)
    (hconverge : ∀ b ∈ targets, r.snapshot.completionTarget b = some join.id)
    (hstatic : isForEachJoin r.snapshot.nodes join.id = false)
    (hfan : r.FanOut m branches targets round) (hdone : r.AllAccepted branches) :
    ((join.joinStrategy.getD .waitAll).isSatisfied targets.length
        (joinIncoming r.snapshot.transitions join.id).length = true →
      ∃ e ∈ r.events, e.firesJoin join.id round = true) ∧
    (r.countCompletedBranches ((joinIncoming r.snapshot.transitions join.id).map WorkflowTransition.source) round =
        targets.length → (∃ e ∈ r.events, e.firesJoin join.id round = true) →
      (join.joinStrategy.getD .waitAll).isSatisfied targets.length
        (joinIncoming r.snapshot.transitions join.id).length = true) := by
  have hlog := logged_of_reachable h r hr
  constructor
  · intro henough
    obtain ⟨hlen, id, found, hfind, hkind, hall⟩ :=
      converges_of_valid ((wellFormed_of_reachable h).rows r hr).valid hsplit htargets
    have hne : targets ≠ [] := by
      rintro rfl
      simp at hlen
    obtain ⟨b, hb⟩ := List.exists_mem_of_ne_nil targets hne
    obtain rfl : join.id = id := Option.some.inj ((hconverge b hb).symm.trans (hall b hb))
    obtain rfl : join = found := Option.some.inj (hjoin.symm.trans hfind)
    refine served_of_reachable h hr hfan hdone ⟨hjoin, hkind, hconverge, ?_, fun hempty => absurd hempty hne⟩
    intro _ r₁ hsnapshot hlog₁ _ _ hcount arrived expected hcounts
    have hnone : r₁.forEachBranchCount join.id round = .ok none :=
      forEachBranchCount_none hlog₁ (fun e he => he) (by rw [hsnapshot]; exact hstatic)
    obtain ⟨rfl, rfl⟩ := joinCounts_static hnone hcounts
    exact JoinStrategy.isSatisfied_mono henough
      (hcount _ fun b hb => mem_incoming_of_completionTarget (hconverge b hb))
  · rintro hcount ⟨e, he, hfires⟩
    obtain ⟨r₁, arrived, expected, hsub, hle, hcounts, hsat⟩ := letGo_of_reachable h hr e he join round hjoin hfires
    obtain ⟨rfl, rfl⟩ := joinCounts_static (forEachBranchCount_none hlog hsub hstatic) hcounts
    exact JoinStrategy.isSatisfied_mono hsat (hcount ▸ hle _)

end

/-- A split into two approvals, both given. -/
def bothBranches : Store :=
  played (Sample.service "e279cc01486c9312b061ffcb92a891438ccc2ab2182b09582072aef9e3d8d9df") 9
    [Sample.start (Sample.definition [Sample.approval "a", Sample.node "s" (.parallelSplit ["x", "y"]),
      Sample.approval "x", Sample.approval "y", Sample.node "j" (.parallelJoin .waitAll)]
      [Sample.approved "a" "s", Sample.approved "x" "j", Sample.approved "y" "j", Sample.approved "j" "end"]) none,
    Sample.approve (Sample.uuid 0 1), Sample.approve (Sample.uuid 1 0), Sample.approve (Sample.uuid 1 1)]

theorem split_join_fires_forked : ∃ r ∈ bothBranches, ∃ e ∈ r.events, e.firesJoin "j" 1 = true := by
  have hfan : ∃ r ∈ bothBranches, (∃ split ∈ r.snapshot.nodes, split.parallelSplit = some ["x", "y"]) ∧
      (findNode r.snapshot.nodes "j").any (fun join => join.id = "j" ∧ join.joinStrategy = some .waitAll) = true ∧
      (∀ b ∈ ["x", "y"], r.snapshot.completionTarget b = some "j") ∧ isForEachJoin r.snapshot.nodes "j" = false ∧
      (joinIncoming r.snapshot.transitions "j").length = 2 ∧
      (r.fanOutAt 4).any (fun fan => fan.2.2 = (["x", "y"], 1) ∧ r.AllAccepted fan.2.1) = true := by decide +kernel
  obtain ⟨r, hr, ⟨split, hsplit, htargets⟩, hjoin, hconverge, hstatic, hedges, hfan⟩ := hfan
  obtain ⟨join, hfind, hnamed⟩ := (Option.any_eq_true _ _).1 hjoin
  obtain ⟨hid, hstrategy⟩ := of_decide_eq_true hnamed
  obtain ⟨⟨m, branches, announced⟩, hat, hdone⟩ := (Option.any_eq_true _ _).1 hfan
  obtain ⟨rfl, hdone⟩ := of_decide_eq_true hdone
  rw [← hid] at hfind hconverge hstatic hedges
  obtain ⟨e, he, hfires⟩ := (split_join_fires (reachable_played ..) hr hsplit htargets hfind hconverge hstatic
    (InstanceRows.fanOut_of_at hat) hdone).1 (by rw [hstrategy, hedges]; rfl)
  exact ⟨r, hr, e, he, by rw [← hid]; exact hfires⟩

/-- A split into two approvals, both given, whose join has an edge from a third approval. -/
def thirdEdge : Store :=
  played (Sample.service "7886d8380def376e90c19126087f9157edd8e2ff6052c8d1dfc6170f1ed208ac") 9
    [Sample.start (Sample.definition [Sample.approval "a", Sample.node "s" (.parallelSplit ["x", "y"]),
      Sample.approval "x", Sample.approval "y", Sample.approval "z", Sample.node "j" (.parallelJoin .waitAll)]
      [Sample.approved "a" "s", Sample.approved "x" "j", Sample.approved "y" "j", Sample.approved "z" "j",
        Sample.approved "j" "end"]) none,
    Sample.approve (Sample.uuid 0 1), Sample.approve (Sample.uuid 1 0), Sample.approve (Sample.uuid 1 1)]

/-- The join waits for a third arrival, and no branch is left. -/
theorem third_edge_stuck : (engine (Sample.service
      "7886d8380def376e90c19126087f9157edd8e2ff6052c8d1dfc6170f1ed208ac")).Reachable thirdEdge ∧
    ∃ r ∈ thirdEdge, (∃ split ∈ r.snapshot.nodes, split.parallelSplit = some ["x", "y"]) ∧
      (∃ join, findNode r.snapshot.nodes "j" = some join ∧ join.joinStrategy = some .waitAll) ∧
      (∀ b ∈ ["x", "y"], r.snapshot.completionTarget b = some "j") ∧ isForEachJoin r.snapshot.nodes "j" = false ∧
      (∀ a ∈ r.activities, a.status ≠ .active) ∧ ∃ m branches, r.FanOut m branches ["x", "y"] 1 ∧
        r.AllAccepted branches ∧ ¬ ∃ e ∈ r.events, e.firesJoin "j" 1 = true := by
  have hfan : ∃ r ∈ thirdEdge, (∃ split ∈ r.snapshot.nodes, split.parallelSplit = some ["x", "y"]) ∧
      (findNode r.snapshot.nodes "j").any (fun join => join.joinStrategy = some .waitAll) = true ∧
      (∀ b ∈ ["x", "y"], r.snapshot.completionTarget b = some "j") ∧ isForEachJoin r.snapshot.nodes "j" = false ∧
      (∀ a ∈ r.activities, a.status ≠ .active) ∧ (r.fanOutAt 4).any (fun fan => fan.2.2 = (["x", "y"], 1) ∧
        r.AllAccepted fan.2.1) = true ∧ ¬ ∃ e ∈ r.events, e.firesJoin "j" 1 = true := by decide +kernel
  obtain ⟨r, hr, hsplit, hjoin, hconverge, hstatic, hidle, hfan, hstuck⟩ := hfan
  obtain ⟨join, hfind, hstrategy⟩ := (Option.any_eq_true _ _).1 hjoin
  obtain ⟨⟨m, branches, announced⟩, hat, hdone⟩ := (Option.any_eq_true _ _).1 hfan
  obtain ⟨rfl, hdone⟩ := of_decide_eq_true hdone
  exact ⟨reachable_played .., r, hr, hsplit, ⟨join, hfind, of_decide_eq_true hstrategy⟩, hconverge, hstatic, hidle,
    m, branches, InstanceRows.fanOut_of_at hat, hdone, hstuck⟩

section
variable {svc : WorkflowService} {store : Store} {r : InstanceRows} {node join : WorkflowNode}
  {path template : String} {cap : Option Int} {m : EventRow} {branches : List EventRow} {n : Nat} {round : Int}

/-- A for-each of a valid definition fans out into a join. -/
theorem forEach_join_of_valid {cel : Cel} {nodes : List WorkflowNode} {transitions : List WorkflowTransition}
    (h : validateDefinition cel nodes transitions = .ok ()) {joinId : String} (hnode : node ∈ nodes)
    (hfor : node.forEach = some (path, template, joinId, cap)) :
    ∃ join, findNode nodes joinId = some join ∧ join.kind = .parallelJoin := by
  have hvalid := (published_of_valid h).node node hnode
  unfold validateNode at hvalid
  obtain ⟨_, -, hvalid⟩ := bind_ok hvalid
  rw [kind_of_forEach hfor] at hvalid
  exact (forEach_of_valid hvalid hfor).2

/-- The `n` branches of a for-each let its join go: an empty collection satisfies the strategy at once; else the
join counts their template, they complete into the join, and they satisfy the strategy against the branch count
of every fan-out into the join in the round. -/
def InstanceRows.BranchesSuffice (r : InstanceRows) (join : WorkflowNode) (template : String) (n : Nat)
    (round : Int) : Prop :=
  (n = 0 → (join.joinStrategy.getD .waitAll).isSatisfied 0 0 = true) ∧
  (0 < n → WorkflowService.joinTemplate r.snapshot.nodes join.id = some template ∧
    r.snapshot.completionTarget template = some join.id ∧
    ∀ e ∈ r.events, InstanceRows.isFanOutInto join.id round e = true → ∀ k ∈ e.int "branch_count",
      (join.joinStrategy.getD .waitAll).isSatisfied n k = true)

instance (r : InstanceRows) (join : WorkflowNode) (template : String) (n : Nat) (round : Int) :
    Decidable (r.BranchesSuffice join template n round) :=
  inferInstanceAs (Decidable (_ ∧ _))

/-- The counts at a join that a for-each has fanned out into are those of some fan-out of the round. -/
private theorem joinCounts_forEach {r₁ : InstanceRows} {joinId : String} {arrived expected : Int}
    (htemplate : WorkflowService.joinTemplate r.snapshot.nodes joinId = some template)
    (hm : m ∈ r₁.events) (hinto : InstanceRows.isFanOutInto joinId round m = true)
    (h : JoinCounts r.snapshot r₁ joinId round arrived expected) :
    arrived = r₁.countCompletedBranches [template] round ∧
      ∃ e ∈ r₁.events, InstanceRows.isFanOutInto joinId round e = true ∧ e.int "branch_count" = some expected := by
  obtain ⟨dynamic, ids, hdynamic, hexpected, rfl⟩ := h
  unfold InstanceRows.forEachBranchCount at hdynamic
  cases hfind : r₁.events.reverse.find? (InstanceRows.isFanOutInto joinId round) with
  | none => exact absurd hinto (by simpa using List.find?_eq_none.1 hfind m (List.mem_reverse.2 hm))
  | some e =>
    rw [hfind] at hdynamic
    dsimp only at hdynamic
    cases hcount : (e.payload.get "branch_count").bind Json.asI64 with
    | none => simp [hcount] at hdynamic
    | some k =>
      simp only [hcount, Except.ok.injEq] at hdynamic
      subst hdynamic
      simp only [WorkflowService.branchExpectation, htemplate, Except.ok.injEq, Prod.mk.injEq] at hexpected
      obtain ⟨rfl, rfl⟩ := hexpected
      exact ⟨rfl, e, List.mem_reverse.1 (List.mem_of_find?_eq_some hfind), List.find?_some hfind, hcount⟩

/-- A for-each's join fires once all its branches are accepted, and the outcome of its APPROVED edge is
applied, if the branches suffice. -/
theorem forEach_join_fires (h : (engine svc).Reachable store) (hr : r ∈ store)
    (hnode : findNode r.snapshot.nodes node.id = some node)
    (hfor : node.forEach = some (path, template, join.id, cap))
    (hjoin : findNode r.snapshot.nodes join.id = some join)
    (hmarker : m.eventType = .forEachFannedOut) (hnamed : m.str "for_each_node" = some node.id)
    (hfan : r.FanOut m branches (List.replicate n template) round) (hdone : r.AllAccepted branches)
    (hsuffice : r.BranchesSuffice join template n round) :
    ∃ pre e post, r.events = pre ++ e :: post ∧ e.firesJoin join.id round = true ∧
      ∃ x ∈ post, ∃ context, x.records round
        (decideAdvance svc.cel r.snapshot.nodes r.snapshot.transitions context join.id .approved).1 := by
  obtain ⟨found, hfind, hkind⟩ := forEach_join_of_valid ((wellFormed_of_reachable h).rows r hr).valid
    (List.mem_of_find?_eq_some hnode) hfor
  obtain rfl : join = found := Option.some.inj (hjoin.symm.trans hfind)
  obtain ⟨id, node', path', template', joinId, cap', count, hid, hnode', hfor', hjoinId, -, hround, hnodes⟩ :=
    forEach_of_announces hfan.announced hmarker
  obtain rfl : node.id = id := Option.some.inj (hnamed.symm.trans hid)
  obtain rfl : node = node' := Option.some.inj (hnode.symm.trans hnode')
  obtain ⟨rfl, rfl, rfl, rfl⟩ : path = path' ∧ template = template' ∧ join.id = joinId ∧ cap = cap' := by
    simpa using hfor.symm.trans hfor'
  have hinto : InstanceRows.isFanOutInto join.id round m = true := by
    simp only [InstanceRows.isFanOutInto, Bool.and_eq_true, beq_iff_eq]
    exact ⟨⟨hmarker, hjoinId⟩, hround⟩
  have hpos : ∀ {b : String}, b ∈ List.replicate n template → 0 < n := fun hb =>
    Nat.pos_of_ne_zero (List.mem_replicate.1 hb).1
  have hserves : Serves r m (List.replicate n template) join round := by
    refine ⟨hjoin, hkind, fun b hb => ?_,
      fun hne r₁ _ _ hsub hm hcount arrived expected hcounts => ?_, fun hempty => ?_⟩
    · rw [(List.mem_replicate.1 hb).2]
      exact (hsuffice.2 (hpos hb)).2.1
    · obtain ⟨b, hb⟩ := List.exists_mem_of_ne_nil _ hne
      obtain ⟨htemplate, -, hall⟩ := hsuffice.2 (hpos hb)
      obtain ⟨rfl, e, he, hinto, hk⟩ := joinCounts_forEach htemplate hm hinto hcounts
      refine JoinStrategy.isSatisfied_mono (hall e (hsub e he) hinto expected hk) ?_
      have hle := hcount [template] fun b hb => List.mem_singleton.2 (List.mem_replicate.1 hb).2
      rwa [List.length_replicate] at hle
    · exact ⟨hmarker, hjoinId, hsuffice.1 (by simpa using hempty)⟩
  obtain ⟨e, he, hfires⟩ := served_of_reachable h hr hfan hdone hserves
  obtain ⟨pre, post, hevents⟩ := List.append_of_mem he
  exact ⟨pre, e, post, hevents, hfires, continued_of_reachable h r hr pre e post hevents join.id round hfires⟩

end

/-- A for-each over the items of the context, each an approval, into a join of this strategy; the first
approval is given. -/
def fannedOut (hash : String) (strategy : JoinStrategy) (items : List Json) (rest : List Step) : Store :=
  played (Sample.service hash) 9
    ([Sample.start (Sample.definition [Sample.approval "a", Sample.node "f" (.forEach "context.items" "t" "j" none),
        Sample.approval "t", Sample.node "j" (.parallelJoin strategy)]
        [Sample.approved "a" "f", Sample.approved "t" "j", Sample.approved "j" "end"])
        (some (.obj [("items", .arr items)])),
      Sample.approve (Sample.uuid 0 1)] ++ rest)

theorem forEach_join_fires_two :
    let store := fannedOut "77dab4fbc2f408f8bee359b9967865c103238e74acf87d9792e19552f41c40ee" .waitAll
      [.str "x", .str "y"] [Sample.approve (Sample.uuid 1 0), Sample.approve (Sample.uuid 1 1)]
    ∃ r ∈ store, ∃ pre e post, r.events = pre ++ e :: post ∧ e.firesJoin "j" 1 = true ∧
      ∃ x ∈ post, ∃ context, x.records 1 (decideAdvance Sample.cel r.snapshot.nodes r.snapshot.transitions context "j"
        .approved).1 := by
  intro store
  have hfan : ∃ r ∈ store,
      (findNode r.snapshot.nodes "f").any (fun node => node.id = "f" ∧
        node.forEach = some ("context.items", "t", "j", none)) = true ∧
      (findNode r.snapshot.nodes "j").any (fun join => join.id = "j" ∧ r.BranchesSuffice join "t" 2 1) = true ∧
      (r.fanOutAt 4).any (fun fan => fan.1.eventType = .forEachFannedOut ∧ fan.1.str "for_each_node" = some "f" ∧
        fan.2.2 = (["t", "t"], 1) ∧ r.AllAccepted fan.2.1) = true := by decide +kernel
  obtain ⟨r, hr, hnode, hjoin, hfan⟩ := hfan
  obtain ⟨node, hnode, hnamed⟩ := (Option.any_eq_true _ _).1 hnode
  obtain ⟨hnodeId, hfor⟩ := of_decide_eq_true hnamed
  obtain ⟨join, hjoin, hnamed⟩ := (Option.any_eq_true _ _).1 hjoin
  obtain ⟨hjoinId, hsuffice⟩ := of_decide_eq_true hnamed
  obtain ⟨⟨m, branches, announced⟩, hat, hdone⟩ := (Option.any_eq_true _ _).1 hfan
  obtain ⟨hmarker, hnames, rfl, hdone⟩ := of_decide_eq_true hdone
  rw [← hjoinId] at hjoin hfor ⊢
  rw [← hnodeId] at hnode hnames
  have hreachable : (engine (Sample.service
      "77dab4fbc2f408f8bee359b9967865c103238e74acf87d9792e19552f41c40ee")).Reachable store := reachable_played ..
  have hfired := forEach_join_fires hreachable hr hnode hfor hjoin hmarker hnames (InstanceRows.fanOut_of_at hat)
    hdone hsuffice
  exact ⟨r, hr, hfired⟩

/-- The join of an empty collection waits for an arrival, and no branch is left. -/
theorem empty_collection_stuck :
    let store := fannedOut "ba356099e17f1ddd9f4174eacc310a0656900e60d6280977ed8663a79a582ee6" .waitAny [] []
    (engine (Sample.service "ba356099e17f1ddd9f4174eacc310a0656900e60d6280977ed8663a79a582ee6")).Reachable store ∧
      ∃ r ∈ store, (∃ node, findNode r.snapshot.nodes "f" = some node ∧
          node.forEach = some ("context.items", "t", "j", none)) ∧
        (∀ a ∈ r.activities, a.status ≠ .active) ∧
        (∃ m, m.eventType = .forEachFannedOut ∧ m.str "for_each_node" = some "f" ∧ r.FanOut m [] [] 1 ∧
          r.AllAccepted []) ∧ ¬ ∃ e ∈ r.events, e.firesJoin "j" 1 = true := by
  intro store
  have hfan : ∃ r ∈ store,
      (findNode r.snapshot.nodes "f").any (fun node =>
        node.forEach = some ("context.items", "t", "j", none)) = true ∧
      (∀ a ∈ r.activities, a.status ≠ .active) ∧
      (r.fanOutAt 4).any (fun fan => fan.1.eventType = .forEachFannedOut ∧ fan.1.str "for_each_node" = some "f" ∧
        fan.2.2 = ([], 1)) = true ∧ ¬ ∃ e ∈ r.events, e.firesJoin "j" 1 = true := by decide +kernel
  obtain ⟨r, hr, hnode, hidle, hfan, hstuck⟩ := hfan
  obtain ⟨node, hnode, hfor⟩ := (Option.any_eq_true _ _).1 hnode
  obtain ⟨⟨m, branches, announced⟩, hat, hdone⟩ := (Option.any_eq_true _ _).1 hfan
  obtain ⟨hmarker, hnames, rfl⟩ := of_decide_eq_true hdone
  have hfanOut := InstanceRows.fanOut_of_at hat
  obtain rfl := List.eq_nil_of_length_eq_zero hfanOut.size
  exact ⟨reachable_played .., r, hr, ⟨node, hnode, of_decide_eq_true hfor⟩, hidle,
    ⟨m, hmarker, hnames, hfanOut, fun _ he => (List.not_mem_nil he).elim⟩, hstuck⟩

section
variable {svc : WorkflowService} {store : Store} {r : InstanceRows} {join : String} {round : Int}

/-- The join is never looked at again in a round in which it has fired. -/
def InstanceRows.NeverRevisits (r : InstanceRows) (join : String) (round : Int) : Prop :=
  r.events.Pairwise fun e x => e.firesJoin join round = true → x.reachesJoin join round = false

instance (r : InstanceRows) (join : String) (round : Int) : Decidable (r.NeverRevisits join round) :=
  inferInstanceAs (Decidable (List.Pairwise _ _))

private theorem reachesJoin_of_fires {e : EventRow} (h : e.firesJoin join round = true) :
    e.reachesJoin join round = false := by
  simp only [EventRow.firesJoin, Bool.and_eq_true, beq_iff_eq] at h
  simp [EventRow.reachesJoin, h.1.1]

private theorem countP_le_one {α : Type} {p : α → Bool} {l : List α}
    (h : l.Pairwise fun a b => p a = true → p b = false) : l.countP p ≤ 1 := by
  induction h with
  | nil => simp
  | @cons a l hfirst _ ih =>
    rw [List.countP_cons]
    by_cases ha : p a = true
    · have hrest : l.countP p = 0 := List.countP_eq_zero.2 fun b hb => by simp [hfirst b hb ha]
      simp [hrest, ha]
    · simpa [ha] using ih

/-- A join that is not looked at again after it fired, fires at most once in the round. -/
theorem join_fires_once (h : (engine svc).Reachable store) (hr : r ∈ store)
    (hvisits : r.NeverRevisits join round) : r.events.countP (EventRow.firesJoin · join round) ≤ 1 := by
  have hentries := (logged_of_reachable h r hr).entries
  refine countP_le_one ?_
  suffices hsuffix : ∀ post pre, r.events = pre ++ post →
      post.Pairwise fun e e' => e.firesJoin join round = true → e'.firesJoin join round = false from
    hsuffix r.events [] rfl
  intro post
  induction post with
  | nil => exact fun _ _ => .nil
  | cons e rest ih =>
    intro pre hevents
    refine .cons (fun e' he' hfires => Bool.eq_false_iff.2 fun hagain => ?_) (ih (pre ++ [e]) (by rw [hevents]; simp))
    -- the second firing stands right behind a look at the join
    obtain ⟨u, v, rfl⟩ := List.append_of_mem he'
    rw [hevents, ← List.cons_append, ← List.append_assoc] at hentries
    obtain ⟨pre', x, hlast, hx⟩ := reached_of_fires hentries hagain
    rw [InstanceRows.NeverRevisits, hevents] at hvisits
    have hafter := (List.pairwise_cons.1 (List.pairwise_append.1 hvisits).2.1).1
    rcases List.eq_nil_or_concat u with rfl | ⟨u, y, rfl⟩
    · obtain ⟨-, heq⟩ := List.append_inj' hlast rfl
      obtain rfl : e = x := by simpa using heq
      rw [reachesJoin_of_fires hfires] at hx
      cases hx
    · rw [List.concat_eq_append, ← List.cons_append, ← List.append_assoc] at hlast
      obtain ⟨-, heq⟩ := List.append_inj' hlast rfl
      obtain rfl : y = x := by simpa using heq
      rw [hafter y (by simp) hfires] at hx
      cases hx

end

/-- A split that names one of its two approvals twice, all three activities approved. -/
def doubleBranch : Store :=
  played (Sample.service "81e2278f9ad794f1a70317d493851141faccc03e331d64a4ef3ed323d85c7cfc") 9
    [Sample.start (Sample.definition [Sample.approval "a", Sample.node "s" (.parallelSplit ["x", "y", "x"]),
      Sample.approval "x", Sample.approval "y", Sample.node "j" (.parallelJoin .waitAll), Sample.approval "b"]
      [Sample.approved "a" "s", Sample.approved "x" "j", Sample.approved "y" "j", Sample.approved "j" "b",
        Sample.approved "b" "end"]) none,
    Sample.approve (Sample.uuid 0 1), Sample.approve (Sample.uuid 1 0), Sample.approve (Sample.uuid 1 1),
    Sample.approve (Sample.uuid 1 2)]

/-- The third arrival makes the join fire again, and its downstream is scheduled twice. -/
theorem double_branch_fires_twice : (engine (Sample.service
      "81e2278f9ad794f1a70317d493851141faccc03e331d64a4ef3ed323d85c7cfc")).Reachable doubleBranch ∧
    ∃ r ∈ doubleBranch, r.events.countP (EventRow.firesJoin · "j" 1) = 2 ∧
      r.activities.countP (·.activityDefinitionId == "b") = 2 :=
  ⟨reachable_played .., by decide +kernel⟩

theorem join_fires_once_forked : bothBranches.length = 1 ∧
    ∀ r ∈ bothBranches, r.events.countP (EventRow.firesJoin · "j" 1) ≤ 1 ∧
      ∃ e ∈ r.events, e.firesJoin "j" 1 = true := by
  have hvisits : ∀ r ∈ bothBranches, r.NeverRevisits "j" 1 ∧ ∃ e ∈ r.events, e.firesJoin "j" 1 = true := by
    decide +kernel
  refine ⟨by decide +kernel, fun r hr => ?_⟩
  exact ⟨join_fires_once (reachable_played ..) hr (hvisits r hr).1, (hvisits r hr).2⟩

end Fusions.Hetuflow
