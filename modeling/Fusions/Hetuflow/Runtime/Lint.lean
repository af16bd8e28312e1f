import Fusions.Hetuflow.Runtime.Routes
import Fusions.Library.Worklist

/-! The topology lint: findings about the whole graph of a definition, over the edges that it reads off the nodes
and transitions. -/
namespace Fusions.Hetuflow
open Library

structure LintFinding where
  severity : String
  code : String
  nodeId : Option String
  message : String
  deriving DecidableEq, Repr

namespace LintFinding

def error (code : String) (nodeId : Option String) (message : String) : LintFinding :=
  ⟨"error", code, nodeId, message⟩

def warning (code : String) (nodeId : Option String) (message : String) : LintFinding :=
  ⟨"warning", code, nodeId, message⟩

end LintFinding

/-- The targets of a node: of its transitions, and those its routing config embeds. -/
def staticOutTargets (node : WorkflowNode) (transitions : List WorkflowTransition) : List String :=
  let out := (transitions.filter fun t => t.source == node.id).map WorkflowTransition.target
  match node.kind with
  | .parallelSplit =>
    match node.parallelSplit with
    | some branches => out ++ branches
    | none => out
  | .condition =>
    match node.condition with
    | some (default, branches) => out ++ [default] ++ branches.map ConditionBranch.target
    | none => out
  | .eventWait =>
    match node.eventWait with
    | some (_, _, some timeoutTarget) => out ++ [timeoutTarget]
    | _ => out
  | _ => out

section
variable (nodes : List WorkflowNode) (transitions : List WorkflowTransition)

/-- The targets of the node under an id that exist. -/
def existingTargets (id : String) : List String :=
  match findNode nodes id with
  | none => []
  | some node => (staticOutTargets node transitions).filter (knownId nodes)

theorem existingTargets_eq_nil {id : String} (h : id ∉ nodes.map WorkflowNode.id) :
    existingTargets nodes transitions id = [] := by
  have hnone : findNode nodes id = none := by
    refine List.find?_eq_none.2 fun n hn => ?_
    simpa using fun heq => h (List.mem_map.2 ⟨n, hn, heq⟩)
  rw [existingTargets, hnone]

/-- The graph that the lint walks. -/
def staticGraph : Graph String where
  vertices := nodes.map WorkflowNode.id
  succ := existingTargets nodes transitions
  succ_eq_nil _ := existingTargets_eq_nil nodes transitions

def danglingEdge (field id : String) : LintFinding :=
  .error "dangling_edge" (some id) s!"transition.{field} '{id}' references a non-existent node"

def danglingEdges (t : WorkflowTransition) : List LintFinding :=
  (if knownId nodes t.source then [] else [danglingEdge "from" t.source]) ++
  if knownId nodes t.target then [] else [danglingEdge "to" t.target]

def unreachableNode (node : WorkflowNode) : LintFinding :=
  .error "unreachable_node" (some node.id) s!"node '{node.id}' is not reachable from the start node"

/-- The ids that the search from `start` visits. -/
def reachable (start : String) : List String :=
  ((staticGraph nodes transitions).search (fun _ => false) [] [start]).2

/-- Nothing is reported unless there is exactly one start. -/
def unreachableNodes : List LintFinding :=
  match nodes.filter fun n => n.kind == .start with
  | [start] =>
    let reachable := reachable nodes transitions start.id
    (nodes.filter fun n => n.kind != .start && !reachable.contains n.id).map unreachableNode
  | _ => []

def deadlockDetail : NodeKind → String
  | .eventWait => " (no EVENT_RECEIVED outgoing transition and no timeout_target)"
  | .approval => " (no APPROVED outgoing transition)"
  | _ => ""

def deadlockNode (node : WorkflowNode) : LintFinding :=
  .error "deadlock_node" (some node.id)
    s!"node '{node.id}' has no outgoing advance path and is not an end node{deadlockDetail node.kind}"

def isDeadlock (node : WorkflowNode) : Bool :=
  node.kind != .endNode && node.kind != .start && (staticOutTargets node transitions).isEmpty

/-- Does some parallel join stand on the way from a branch? -/
def branchReachesJoin (start : String) : Bool :=
  ((staticGraph nodes transitions).search
    (fun id => (findNode nodes id).any fun n => n.kind == .parallelJoin) [] [start]).1

def parallelUnclosed (split : WorkflowNode) (branch : String) : LintFinding :=
  .warning "parallel_unclosed" (some branch)
    s!"parallel branch '{branch}' (from split '{split.id}') does not reach any ParallelJoin"

def unclosedBranches (split : WorkflowNode) : List LintFinding :=
  match split.parallelSplit with
  | none => []
  | some branches =>
    (branches.filter fun b => knownId nodes b && !branchReachesJoin nodes transitions b).map (parallelUnclosed split)

def lintDefinition : List LintFinding :=
  transitions.flatMap (danglingEdges nodes) ++ unreachableNodes nodes transitions ++
    (nodes.filter (isDeadlock transitions)).map deadlockNode ++ nodes.flatMap (unclosedBranches nodes transitions)

end

/-! What the edges of the graph are. -/
section
variable {nodes : List WorkflowNode} {transitions : List WorkflowTransition} {node : WorkflowNode} {v w : String}

theorem mem_staticOutTargets : w ∈ staticOutTargets node transitions ↔
    (∃ t ∈ transitions, t.source = node.id ∧ t.target = w) ∨
    (∃ branches, node.parallelSplit = some branches ∧ w ∈ branches) ∨
    (∃ default branches, node.condition = some (default, branches) ∧ (w = default ∨ ∃ b ∈ branches, b.target = w)) ∨
    ∃ eventType seconds, node.eventWait = some (eventType, seconds, some w) := by
  obtain ⟨id, name, contextWrites, config⟩ := node
  cases config with
  | parallelSplit | condition =>
    simp [staticOutTargets, WorkflowNode.kind, WorkflowNode.parallelSplit, WorkflowNode.condition,
      WorkflowNode.eventWait, and_assoc]
  | eventWait eventType seconds target =>
    simp only [staticOutTargets, WorkflowNode.kind, WorkflowNode.parallelSplit, WorkflowNode.condition,
      WorkflowNode.eventWait]
    generalize target.filter (fun t => t ≠ "") = expired
    cases expired <;> simp [and_assoc, @eq_comm _ w]
  | _ =>
    simp [staticOutTargets, WorkflowNode.kind, WorkflowNode.parallelSplit, WorkflowNode.condition,
      WorkflowNode.eventWait, and_assoc]

theorem knownId_iff {id : String} : knownId nodes id = true ↔ ∃ n ∈ nodes, n.id = id := by
  simp [knownId]

theorem staticGraph_edge : (staticGraph nodes transitions).Edge v w ↔
    ∃ n, findNode nodes v = some n ∧ w ∈ staticOutTargets n transitions ∧ knownId nodes w = true := by
  change w ∈ existingTargets nodes transitions v ↔ _
  unfold existingTargets
  split
  · next hnone => simp [hnone]
  · next n hfind => simp [hfind]

end

/-! What is reported under a code. -/
section
variable {nodes : List WorkflowNode} {transitions : List WorkflowTransition}

theorem filter_code {findings : List LintFinding} {c : String} (h : ∀ f ∈ findings, f.code = c) (d : String) :
    (findings.filter fun f => f.code == d) = if c = d then findings else [] := by
  split
  · next heq => exact List.filter_eq_self.2 fun f hf => by simp [h f hf, heq]
  · next hne => exact List.filter_eq_nil_iff.2 fun f hf => by simpa [h f hf] using hne

theorem code_of_danglingEdges : ∀ f ∈ transitions.flatMap (danglingEdges nodes), f.code = "dangling_edge" := by
  intro f hf
  obtain ⟨t, -, hf⟩ := List.mem_flatMap.1 hf
  simp only [danglingEdges, List.mem_append, List.mem_ite_nil_left, List.mem_singleton] at hf
  rcases hf with ⟨-, rfl⟩ | ⟨-, rfl⟩ <;> rfl

theorem code_of_unreachableNodes : ∀ f ∈ unreachableNodes nodes transitions, f.code = "unreachable_node" := by
  intro f hf
  unfold unreachableNodes at hf
  split at hf
  · obtain ⟨n, -, rfl⟩ := List.mem_map.1 hf
    rfl
  · cases hf

theorem code_of_deadlockNodes (ns : List WorkflowNode) : ∀ f ∈ ns.map deadlockNode, f.code = "deadlock_node" := by
  intro f hf
  obtain ⟨n, -, rfl⟩ := List.mem_map.1 hf
  rfl

theorem code_of_unclosedBranches :
    ∀ f ∈ nodes.flatMap (unclosedBranches nodes transitions), f.code = "parallel_unclosed" := by
  intro f hf
  obtain ⟨n, -, hf⟩ := List.mem_flatMap.1 hf
  unfold unclosedBranches at hf
  split at hf
  · cases hf
  · obtain ⟨b, -, rfl⟩ := List.mem_map.1 hf
    rfl

theorem lintDefinition_unreachable :
    ((lintDefinition nodes transitions).filter fun f => f.code == "unreachable_node") =
      unreachableNodes nodes transitions := by
  simp [lintDefinition, filter_code code_of_danglingEdges, filter_code code_of_unreachableNodes,
    filter_code (code_of_deadlockNodes _), filter_code code_of_unclosedBranches]

theorem lintDefinition_deadlock :
    ((lintDefinition nodes transitions).filter fun f => f.code == "deadlock_node") =
      (nodes.filter (isDeadlock transitions)).map deadlockNode := by
  simp [lintDefinition, filter_code code_of_danglingEdges, filter_code code_of_unreachableNodes,
    filter_code (code_of_deadlockNodes _), filter_code code_of_unclosedBranches]

end

end Fusions.Hetuflow
