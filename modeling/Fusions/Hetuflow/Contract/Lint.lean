import Fusions.Hetuflow.Runtime.Lint
import Fusions.Hetuflow.Service.Script

/-! What the topology lint reports: its reachability is exact for its own graph, but that graph is not the one
the runtime moves on. -/
namespace Fusions.Hetuflow
open Library Relation

/-- One step of the lint's closure: to a static target that exists. -/
def StaticEdge (nodes : List WorkflowNode) (transitions : List WorkflowTransition) (v w : String) : Prop :=
  ∃ n ∈ nodes, n.id = v ∧ w ∈ staticOutTargets n transitions ∧ ∃ m ∈ nodes, m.id = w

section
variable {nodes : List WorkflowNode} {transitions : List WorkflowTransition}

theorem staticGraph_edge_iff (hids : (nodes.map WorkflowNode.id).Nodup) (v w : String) :
    (staticGraph nodes transitions).Edge v w ↔ StaticEdge nodes transitions v w := by
  rw [staticGraph_edge]
  constructor
  · rintro ⟨n, hfind, hw, hknown⟩
    have hid : n.id = v := by simpa using List.find?_some hfind
    exact ⟨n, List.mem_of_find?_eq_some hfind, hid, hw, knownId_iff.1 hknown⟩
  · rintro ⟨n, hn, rfl, hw, hknown⟩
    exact ⟨n, findNode_of_nodup hids hn, hw, knownId_iff.2 hknown⟩

theorem staticGraph_reaches (hids : (nodes.map WorkflowNode.id).Nodup) :
    (staticGraph nodes transitions).Reaches = ReflTransGen (StaticEdge nodes transitions) := by
  have hedge : (staticGraph nodes transitions).Edge = StaticEdge nodes transitions := by
    funext v w
    exact propext (staticGraph_edge_iff hids v w)
  rw [Graph.Reaches, hedge]

theorem mem_reachable {start id : String} :
    id ∈ reachable nodes transitions start ↔ (staticGraph nodes transitions).Reaches start id :=
  Graph.mem_search_iff start id

theorem branchReachesJoin_iff (hids : (nodes.map WorkflowNode.id).Nodup) (b : String) :
    branchReachesJoin nodes transitions b = true ↔
      ∃ j ∈ nodes, j.kind = .parallelJoin ∧ (staticGraph nodes transitions).Reaches b j.id := by
  rw [branchReachesJoin, Graph.search_iff]
  constructor
  · rintro ⟨w, hreach, hjoin⟩
    obtain ⟨j, hfind, hkind⟩ := (Option.any_eq_true ..).1 hjoin
    obtain rfl : j.id = w := by simpa using List.find?_some hfind
    exact ⟨j, List.mem_of_find?_eq_some hfind, by simpa using hkind, hreach⟩
  · rintro ⟨j, hj, hkind, hreach⟩
    exact ⟨j.id, hreach, by simp [findNode_of_nodup hids hj, hkind]⟩

open scoped Classical in
theorem unreachableNodes_eq {start : WorkflowNode} (hstart : (nodes.filter fun n => n.kind == .start) = [start]) :
    unreachableNodes nodes transitions =
      (nodes.filter fun n => n.kind ≠ .start ∧ ¬ (staticGraph nodes transitions).Reaches start.id n.id).map
        unreachableNode := by
  rw [unreachableNodes, hstart]
  refine congrArg (List.map unreachableNode) (List.filter_congr fun n _ => ?_)
  rw [Bool.eq_iff_iff]
  simp [mem_reachable]

open scoped Classical in
/-- The lint visits exactly what its closure reaches: each node other than the start that it does not reach is
reported once, and a branch reaches a join exactly when the closure holds one. -/
theorem lint_reachability_exact {start : WorkflowNode} (hids : (nodes.map WorkflowNode.id).Nodup)
    (hstart : (nodes.filter fun n => n.kind == .start) = [start]) :
    ((lintDefinition nodes transitions).filter fun f => f.code == "unreachable_node") =
      (nodes.filter fun n => n.kind ≠ .start ∧ ¬ ReflTransGen (StaticEdge nodes transitions) start.id n.id).map
        unreachableNode ∧
    ∀ b, branchReachesJoin nodes transitions b = true ↔
      ∃ j ∈ nodes, j.kind = .parallelJoin ∧ ReflTransGen (StaticEdge nodes transitions) b j.id := by
  rw [← staticGraph_reaches hids]
  refine ⟨?_, branchReachesJoin_iff hids⟩
  rw [lintDefinition_unreachable, unreachableNodes_eq hstart]

/-- A loop, a dangling edge and an edge given twice. -/
theorem lint_reachability_loop :
    let definition := Sample.definition [Sample.approval "a", Sample.node "j" (.parallelJoin .waitAll)]
      [⟨"start", "a", .resubmitted⟩, Sample.approved "a" "a", Sample.approved "a" "nowhere", Sample.approved "a" "a"]
    ∀ b, branchReachesJoin definition.nodes definition.transitions b = true ↔
      ∃ j ∈ definition.nodes, j.kind = .parallelJoin ∧
        ReflTransGen (StaticEdge definition.nodes definition.transitions) b j.id := by
  intro definition
  have hstart : (definition.nodes.filter fun n => n.kind == .start) = [Sample.node "start" .start] := by decide
  exact (lint_reachability_exact (by decide) hstart).2

end

/-- A finding under the code names the node. -/
def Reports (nodes : List WorkflowNode) (transitions : List WorkflowTransition) (code id : String) : Prop :=
  ∃ f ∈ lintDefinition nodes transitions, f.code = code ∧ f.nodeId = some id

/-- What a node of its kind needs to advance is missing, whatever other edges it has. -/
def CannotAdvance (transitions : List WorkflowTransition) (n : WorkflowNode) : Prop :=
  match n.kind with
  | .approval | .merge | .parallelJoin => hasOutgoing transitions n.id .approved = false
  | .assignment | .notification => hasOutgoing transitions n.id .completed = false
  | .eventWait => hasOutgoing transitions n.id .eventReceived = false ∧
      ∀ config ∈ n.eventWait, config.2.2 = none
  | _ => False

instance (transitions : List WorkflowTransition) (n : WorkflowNode) : Decidable (CannotAdvance transitions n) := by
  unfold CannotAdvance
  split <;> infer_instance

section
variable {nodes : List WorkflowNode} {transitions : List WorkflowTransition} {n : WorkflowNode} {id : String}

theorem reports_deadlock_iff :
    Reports nodes transitions "deadlock_node" id ↔ ∃ n ∈ nodes, n.id = id ∧ isDeadlock transitions n = true := by
  have hmem : ∀ f, (f ∈ lintDefinition nodes transitions ∧ f.code = "deadlock_node") ↔
      f ∈ (nodes.filter (isDeadlock transitions)).map deadlockNode := by
    intro f
    rw [← lintDefinition_deadlock, List.mem_filter, beq_iff_eq]
  constructor
  · rintro ⟨f, hf, hcode, hid⟩
    obtain ⟨n, hn, rfl⟩ := List.mem_map.1 ((hmem f).1 ⟨hf, hcode⟩)
    obtain ⟨hn, hdead⟩ := List.mem_filter.1 hn
    exact ⟨n, hn, Option.some.inj hid, hdead⟩
  · rintro ⟨n, hn, rfl, hdead⟩
    obtain ⟨hf, hcode⟩ := (hmem (deadlockNode n)).2 (List.mem_map_of_mem (List.mem_filter.2 ⟨hn, hdead⟩))
    exact ⟨_, hf, hcode, rfl⟩

theorem staticOutTargets_eq_nil (h : staticOutTargets n transitions = []) : ∀ t ∈ transitions, t.source ≠ n.id := by
  intro t ht hsource
  have hmem : t.target ∈ staticOutTargets n transitions := mem_staticOutTargets.2 (.inl ⟨t, ht, hsource, rfl⟩)
  rw [h] at hmem
  cases hmem

/-- A node that cannot advance embeds no target, so the lint sees it as a deadlock when no edge leaves it. -/
theorem isDeadlock_of_cannotAdvance (h : CannotAdvance transitions n) (hedges : ∀ t ∈ transitions, t.source ≠ n.id) :
    isDeadlock transitions n = true := by
  have hkind : n.kind ≠ .endNode ∧ n.kind ≠ .start ∧ n.kind ≠ .parallelSplit ∧ n.kind ≠ .condition := by
    refine ⟨?_, ?_, ?_, ?_⟩ <;> intro hkind <;> simp [CannotAdvance, hkind] at h
  obtain ⟨hend, hstart, hsplit, hcondition⟩ := hkind
  have hnil : staticOutTargets n transitions = [] := by
    refine List.eq_nil_iff_forall_not_mem.2 fun w hw => ?_
    rcases mem_staticOutTargets.1 hw with ⟨t, ht, hsource, -⟩ | ⟨branches, hbranches, -⟩ | ⟨d, bs, hbs, -⟩ |
      ⟨eventType, seconds, hwait⟩
    · exact hedges t ht hsource
    · exact hsplit (kind_of_parallelSplit hbranches)
    · exact hcondition (kind_of_condition hbs)
    · have hkind : n.kind = .eventWait := WorkflowNode.isSome_eventWait_iff.1 (by rw [hwait]; rfl)
      simp [CannotAdvance, hkind, hwait] at h
  simp [isDeadlock, hend, hstart, hnil]

/-- The lint judges a node that cannot advance by whether any edge leaves it, on whatever signal. -/
theorem reports_of_cannotAdvance (hn : n ∈ nodes) (h : CannotAdvance transitions n) :
    Reports nodes transitions "deadlock_node" n.id ↔ ∀ t ∈ transitions, t.source ≠ n.id := by
  rw [reports_deadlock_iff]
  constructor
  · rintro ⟨m, -, hid, hdead⟩
    have hnil : staticOutTargets m transitions = [] := by
      simp only [isDeadlock, Bool.and_eq_true] at hdead
      exact List.isEmpty_iff.1 hdead.2
    rw [← hid]
    exact staticOutTargets_eq_nil hnil
  · intro hedges
    exact ⟨n, hn, rfl, isDeadlock_of_cannotAdvance h hedges⟩

/-- All nodes that cannot advance are reported exactly when no edge on another signal leaves one of them. -/
theorem lint_reports_stuck_iff (nodes : List WorkflowNode) (transitions : List WorkflowTransition) :
    (∀ n ∈ nodes, CannotAdvance transitions n → Reports nodes transitions "deadlock_node" n.id) ↔
      ∀ n ∈ nodes, CannotAdvance transitions n → ∀ t ∈ transitions, t.source ≠ n.id := by
  constructor
  · intro h n hn hstuck
    exact (reports_of_cannotAdvance hn hstuck).1 (h n hn hstuck)
  · intro h n hn hstuck
    exact (reports_of_cannotAdvance hn hstuck).2 (h n hn hstuck)

/-- An approval that can only be returned is stuck, and the lint is silent about it. -/
theorem returned_edge_hides_deadlock :
    let definition := Sample.definition [Sample.approval "a"] [⟨"start", "a", .resubmitted⟩, ⟨"a", "a", .returned⟩]
    CannotAdvance definition.transitions (Sample.approval "a") ∧ Sample.approval "a" ∈ definition.nodes ∧
      ¬ Reports definition.nodes definition.transitions "deadlock_node" "a" := by
  intro definition
  refine ⟨by decide, by decide, ?_⟩
  rw [reports_deadlock_iff]
  decide

end

end Fusions.Hetuflow
