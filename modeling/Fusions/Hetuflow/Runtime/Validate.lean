import Fusions.Hetuflow.Runtime.Advance

/-! The publish gate: `validate_definition` and the domain-driven whitelist. -/
namespace Fusions.Hetuflow

/-- `if cond { return Err(Validation(message)) }`. -/
def reject (cond : Bool) (message : String) : Except FlowError Unit :=
  if cond then .error (.validation message) else .ok ()

def checkUniqueIds (seen : List String) : List WorkflowNode → Except FlowError Unit
  | [] => .ok ()
  | n :: ns => do
    reject (seen.contains n.id) s!"duplicate node id '{n.id}'"
    checkUniqueIds (n.id :: seen) ns

def checkContextKeys (nodeId : String) (seen : List String) : List String → Except FlowError Unit
  | [] => .ok ()
  | key :: keys => do
    reject (key == "") s!"node '{nodeId}' context_writes must not contain empty keys"
    reject (seen.contains key) s!"node '{nodeId}' context_writes contains duplicate key '{key}'"
    checkContextKeys nodeId (key :: seen) keys

section
variable (cel : Cel) (nodes : List WorkflowNode) (transitions : List WorkflowTransition)

/-- `seen_ids.contains`. -/
def knownId (id : String) : Bool := nodes.any (·.id == id)

/-- Is there an edge leaving `id` on `signal`? -/
def hasOutgoing (id : String) (signal : SignalType) : Bool :=
  transitions.any fun t => t.source == id && t.onSignal == signal

def validateContextWrites (node : WorkflowNode) : Except FlowError Unit :=
  if node.contextWrites.isEmpty then .ok ()
  else do
    reject (!(node.kind == .approval || node.kind == .eventWait || node.kind == .notification ||
      node.kind == .assignment))
      s!"node '{node.id}' context_writes may only be configured on activity nodes"
    checkContextKeys node.id [] node.contextWrites

def validateNotification (node : WorkflowNode) : Except FlowError Unit :=
  match node.notification with
  | none => .error (.validation s!"notification node '{node.id}' config missing")
  | some config => do
    reject (config.templateCode.getD "" == "")
      s!"notification node '{node.id}' template_code must not be empty"
    reject config.recipientSelector.isNone
      s!"notification node '{node.id}' recipient_selector must not be empty"
    reject (!hasOutgoing transitions node.id .completed)
      s!"notification node '{node.id}' must have a COMPLETED outgoing transition"

def validateAssignment (node : WorkflowNode) : Except FlowError Unit :=
  match node.assignment with
  | none => .error (.validation s!"assignment node '{node.id}' config missing")
  | some config => do
    reject (config.assigneeSelector.isNone && config.queueCode.getD "" == "")
      s!"assignment node '{node.id}' requires assignee_selector or queue_code"
    reject (!hasOutgoing transitions node.id .completed)
      s!"assignment node '{node.id}' must have a COMPLETED outgoing transition"

def validateEscalation (node : WorkflowNode) : Except FlowError Unit :=
  match node.escalationRaw with
  | none => .ok ()
  | some (secs, role) =>
    match secs.filter (· > 0), role.filter (· ≠ "") with
    | none, none => .ok ()
    | some secs, some _ =>
      match node.slaSeconds with
      | none => .ok ()
      | some sla => reject (secs ≤ sla)
          s!"approval node '{node.id}' escalation_seconds ({secs}) must be > sla_seconds ({sla})"
    | some _, none => .error (.validation
        s!"approval node '{node.id}' escalation_seconds set but escalation_target_role missing")
    | none, some _ => .error (.validation
        s!"approval node '{node.id}' escalation_target_role set but escalation_seconds missing")

def validateApproval (node : WorkflowNode) : Except FlowError Unit := do
  reject (node.assigneeRole.getD "" == "")
    s!"approval node '{node.id}' assignee_role must not be empty"
  reject (!hasOutgoing transitions node.id .approved)
    s!"approval node '{node.id}' must have at least one APPROVED outgoing transition"
  validateEscalation node

def validateConditionBranch (nodeId : String) (branch : ConditionBranch) : Except FlowError Unit := do
  reject (!knownId nodes branch.target)
    s!"condition node '{nodeId}' branch target '{branch.target}' references unknown node"
  match cel.validateExpression branch.guardExpression with
  | .ok _ => .ok ()
  | .error e => .error (.validation s!"condition node '{nodeId}' branch guard invalid: {e}")

def validateCondition (node : WorkflowNode) : Except FlowError Unit :=
  match node.condition with
  | none => .ok ()
  | some (default, branches) => do
    reject (default == "")
      s!"condition node '{node.id}' must have non-empty default_target (X3 #10 mandatory default)"
    reject (!knownId nodes default)
      s!"condition node '{node.id}' default_target '{default}' references unknown node"
    branches.forM (validateConditionBranch cel nodes node.id)

def validateEventWait (node : WorkflowNode) : Except FlowError Unit :=
  match node.eventWait with
  | none => .ok ()
  | some (eventType, _, timeoutTarget) => do
    reject (eventType == "") s!"event_wait node '{node.id}' event_type must not be empty"
    let expired := timeoutTarget.getD ""
    reject (timeoutTarget.any fun target => !knownId nodes target)
      s!"event_wait node '{node.id}' timeout_target '{expired}' references unknown node"
    reject (!hasOutgoing transitions node.id .eventReceived && timeoutTarget.isNone)
      s!"event_wait node '{node.id}' must have at least one EVENT_RECEIVED outgoing transition or a timeout_target"

/-- One branch of a split: a legal kind, no context writes, and its completion edge into a join. -/
def validateSplitBranch (splitId branchId : String) : Except FlowError String :=
  match findNode nodes branchId with
  | none => .error (.validation
      s!"parallel_split node '{splitId}' branch_target '{branchId}' references unknown node")
  | some branch =>
    match completionSignal branch.kind with
    | none => .error (.validation
        s!"parallel_split node '{splitId}' branch_target '{branchId}' must be one of \x7bAPPROVAL, ASSIGNMENT, EVENT_WAIT, NOTIFICATION\x7d kind; got {branch.kind.debug}")
    | some signal => do
      reject (!branch.contextWrites.isEmpty)
        s!"parallel_split node '{splitId}' branch_target '{branchId}' must not declare context_writes"
      match findNextTransition transitions branchId signal with
      | none => .error (.validation
          s!"parallel_split node '{splitId}' branch '{branchId}' must have a {signal.debug} outgoing transition (to ParallelJoin)")
      | some t =>
        if (findNode nodes t.target).any fun n => n.kind == .parallelJoin then .ok t.target
        else .error (.validation
          s!"parallel_split node '{splitId}' branch '{branchId}' APPROVED transition must target a ParallelJoin (got '{t.target}')")

/-- The branches of a split in order, all into the join of the first one. -/
def validateSplitBranches (splitId : String) : Option String → List String → Except FlowError Unit
  | _, [] => .ok ()
  | join, branch :: rest => do
    let target ← validateSplitBranch nodes transitions splitId branch
    match join with
    | none => validateSplitBranches splitId (some target) rest
    | some existing =>
      if existing == target then validateSplitBranches splitId (some existing) rest
      else .error (.validation
        s!"parallel_split node '{splitId}' branches must converge to the SAME ParallelJoin (got '{existing}' and '{target}')")

def validateParallelSplit (node : WorkflowNode) : Except FlowError Unit :=
  match node.parallelSplit with
  | none => .ok ()
  | some targets => do
    reject (targets.length < 2)
      s!"parallel_split node '{node.id}' must have >= 2 branch_targets (got {targets.length})"
    validateSplitBranches nodes transitions node.id none targets

/-- The edges into a join that carry a branch completion. -/
def joinIncoming (joinId : String) : List WorkflowTransition :=
  transitions.filter fun t => t.target == joinId && isJoinIncomingSignal t.onSignal

/-- Does some for-each node fan out into this join? -/
def isForEachJoin (joinId : String) : Bool :=
  nodes.any fun n => n.forEach.any fun f => f.2.2.1 == joinId

def validateJoinThreshold (node : WorkflowNode) : Except FlowError Unit :=
  match node.joinStrategy with
  | some (.nOfM n) => do
    reject (n < 1)
      s!"parallel_join node '{node.id}' N_OF_M strategy requires min_completions >= 1 (got {n})"
    reject (!isForEachJoin nodes node.id && n.toNat > (joinIncoming transitions node.id).length)
      s!"parallel_join node '{node.id}' N_OF_M min_completions ({n}) exceeds incoming branches ({(joinIncoming transitions node.id).length})"
  | _ => .ok ()

def validateParallelJoin (node : WorkflowNode) : Except FlowError Unit := do
  reject (!isForEachJoin nodes node.id && (joinIncoming transitions node.id).length < 2)
    s!"parallel_join node '{node.id}' must have >= 2 incoming branch transitions (APPROVED/COMPLETED/EVENT_RECEIVED) (got {(joinIncoming transitions node.id).length})"
  reject (!hasOutgoing transitions node.id .approved)
    s!"parallel_join node '{node.id}' must have an APPROVED outgoing transition (to advance after join)"
  validateJoinThreshold nodes transitions node

/-- No branch of any split may converge on this merge. -/
def validateMergeBranches (mergeId : String) (splitNode : WorkflowNode) : Except FlowError Unit :=
  match splitNode.parallelSplit with
  | none => .ok ()
  | some targets => targets.forM fun branch =>
    reject (transitions.any fun t =>
        t.source == branch && t.onSignal == .approved && t.target == mergeId)
      s!"merge node '{mergeId}' must not be the convergence of parallel branches (use ParallelJoin); branch '{branch}' targets it"

def validateMerge (node : WorkflowNode) : Except FlowError Unit := do
  let outgoing := transitions.filter fun t => t.source == node.id && t.onSignal == .approved
  reject (outgoing.length != 1)
    s!"merge node '{node.id}' must have exactly one APPROVED outgoing transition (got {outgoing.length})"
  reject (outgoing.head?.any fun t => (findNode nodes t.target).any fun n => n.kind == .parallelSplit)
    s!"merge node '{node.id}' APPROVED outgoing must not target a ParallelSplit (no implicit fan-out after merge)"
  (nodes.filter fun n => n.kind == .parallelSplit).forM (validateMergeBranches transitions node.id)

def validateForEach (node : WorkflowNode) : Except FlowError Unit :=
  match node.forEach with
  | none => .ok ()
  | some (itemsPath, template, join, _) => do
    reject (itemsPath == "") s!"for_each node '{node.id}' items_path must not be empty"
    match cel.validateExpression itemsPath with
    | .ok _ => .ok ()
    | .error e => .error (.validation s!"for_each node '{node.id}' items_path invalid: {e}")
    match findNode nodes template with
    | none => .error (.validation
        s!"for_each node '{node.id}' branch_template '{template}' references unknown node")
    | some templateNode => do
      reject (forEachBranchType templateNode.kind).isNone
        s!"for_each node '{node.id}' branch_template '{template}' must be APPROVAL/ASSIGNMENT/EVENT_WAIT kind (no nested fan-out); got {templateNode.kind.debug}"
      reject (!templateNode.contextWrites.isEmpty)
        s!"for_each node '{node.id}' branch_template '{template}' must not declare context_writes"
    match findNode nodes join with
    | none => .error (.validation
        s!"for_each node '{node.id}' join_target '{join}' references unknown node")
    | some joinNode =>
      reject (joinNode.kind != .parallelJoin)
        s!"for_each node '{node.id}' join_target '{join}' must be a ParallelJoin (got {joinNode.kind.debug})"
    reject (!transitions.any fun t =>
        t.source == template && t.target == join && isJoinIncomingSignal t.onSignal)
      s!"for_each node '{node.id}' branch_template '{template}' must have an outgoing transition (APPROVED/COMPLETED/EVENT_RECEIVED) into join_target '{join}'"

def validateSubWorkflow (node : WorkflowNode) : Except FlowError Unit :=
  match node.subWorkflow with
  | none => .ok ()
  | some (child, _, onChildFailed) => do
    reject (child == "") s!"sub_workflow node '{node.id}' child_flow_type must not be empty"
    reject (!hasOutgoing transitions node.id .eventReceived)
      s!"sub_workflow node '{node.id}' must have an EVENT_RECEIVED outgoing transition (to advance after child completes)"
    let failed := onChildFailed.getD ""
    reject (onChildFailed.any fun target => !knownId nodes target)
      s!"sub_workflow node '{node.id}' on_child_failed_target '{failed}' references unknown node"

def validateNode (node : WorkflowNode) : Except FlowError Unit := do
  validateContextWrites node
  match node.kind with
  | .parallel | .timer =>
    .error (.validation s!"v1.0 does not support node kind {node.kind.debug}")
  | .notification => validateNotification transitions node
  | .assignment => validateAssignment transitions node
  | .approval => validateApproval transitions node
  | .condition => validateCondition cel nodes node
  | .eventWait => validateEventWait nodes transitions node
  | .parallelSplit => validateParallelSplit nodes transitions node
  | .parallelJoin => validateParallelJoin nodes transitions node
  | .merge => validateMerge nodes transitions node
  | .forEach => validateForEach cel nodes transitions node
  | .subWorkflow => validateSubWorkflow nodes transitions node
  | .start | .endNode => .ok ()

def validateTransition (t : WorkflowTransition) : Except FlowError Unit := do
  reject (!knownId nodes t.source) s!"transition.from '{t.source}' references unknown node"
  reject (!knownId nodes t.target) s!"transition.to '{t.target}' references unknown node"

def validateDefinition : Except FlowError Unit := do
  checkUniqueIds [] nodes
  let startCount := (nodes.filter fun n => n.kind == .start).length
  let endCount := (nodes.filter fun n => n.kind == .endNode).length
  reject (startCount != 1) s!"nodes must contain exactly one start node (found {startCount})"
  reject (endCount == 0) "nodes must contain at least one end node"
  nodes.forM (validateNode cel nodes transitions)
  transitions.forM (validateTransition nodes)

end

/-- The kinds a domain-driven definition may have: none of them lets the engine advance by itself. -/
def NodeKind.domainDriven : NodeKind → Bool
  | .start | .approval | .condition | .endNode | .merge => true
  | _ => false

def validateDomainDriven (nodes : List WorkflowNode) : Except FlowError Unit :=
  nodes.forM fun node =>
    reject (!node.kind.domainDriven)
      s!"domain-driven definition must not contain node '{node.id}' of kind {node.kind.debug}: only start / approval / condition / end / merge advance solely on a caller signal"

theorem bind_ok {α β : Type} {x : Except FlowError α} {f : α → Except FlowError β} {b : β}
    (h : (x >>= f) = .ok b) : ∃ a, x = .ok a ∧ f a = .ok b := by
  cases x with
  | ok a => exact ⟨a, rfl, h⟩
  | error e => cases h

theorem forM_ok {α : Type} {f : α → Except FlowError Unit} {xs : List α} (h : xs.forM f = .ok ()) :
    ∀ x ∈ xs, f x = .ok () := by
  induction xs with
  | nil => simp
  | cons x xs ih =>
    obtain ⟨⟨⟩, hx, hxs⟩ := bind_ok h
    intro y hy
    rcases List.mem_cons.1 hy with rfl | hy
    · exact hx
    · exact ih hxs y hy

theorem reject_ok {c : Bool} {m : String} {u : Unit} (h : reject c m = .ok u) : c = false := by
  cases c with
  | false => rfl
  | true => cases h

/-- The template of a published for-each, and its join. -/
theorem forEach_of_valid {cel : Cel} {nodes : List WorkflowNode} {transitions : List WorkflowTransition}
    {n : WorkflowNode} {path template join : String} {cap : Option Int}
    (h : validateForEach cel nodes transitions n = .ok ()) (hforEach : n.forEach = some (path, template, join, cap)) :
    (∃ branch activityType, findNode nodes template = some branch ∧
      forEachBranchType branch.kind = some activityType) ∧
      ∃ joinNode, findNode nodes join = some joinNode ∧ joinNode.kind = .parallelJoin := by
  simp only [validateForEach, hforEach] at h
  obtain ⟨_, -, h⟩ := bind_ok h
  -- the checks of the items path and of the template come before that of the join
  cases hpath : cel.validateExpression path with
  | error e =>
    rw [hpath] at h
    cases h
  | ok u =>
    rw [hpath] at h
    obtain ⟨_, -, h⟩ := bind_ok h
    cases htemplate : findNode nodes template with
    | none =>
      rw [htemplate] at h
      cases h
    | some branch =>
      rw [htemplate] at h
      obtain ⟨_, hbranch, h⟩ := bind_ok h
      cases hjoin : findNode nodes join with
      | none =>
        rw [hjoin] at h
        obtain ⟨_, -, h⟩ := bind_ok h
        cases h
      | some joinNode =>
        rw [hjoin] at h
        obtain ⟨_, -, h⟩ := bind_ok h
        obtain ⟨_, hkind, -⟩ := bind_ok h
        have htype : (forEachBranchType branch.kind).isSome = true := by simpa using reject_ok hbranch
        obtain ⟨activityType, htype⟩ := Option.isSome_iff_exists.1 htype
        exact ⟨⟨branch, activityType, rfl, htype⟩, joinNode, rfl, by simpa using reject_ok hkind⟩

private theorem nodup_of_checkUniqueIds {seen : List String} {nodes : List WorkflowNode}
    (h : checkUniqueIds seen nodes = .ok ()) :
    (nodes.map WorkflowNode.id).Nodup ∧ ∀ n ∈ nodes, n.id ∉ seen := by
  induction nodes generalizing seen with
  | nil => simp
  | cons n ns ih =>
    obtain ⟨_, hfresh, hrest⟩ := bind_ok h
    have hfresh : n.id ∉ seen := by simpa using reject_ok hfresh
    obtain ⟨hnodup, hseen⟩ := ih hrest
    refine ⟨List.nodup_cons.2 ⟨fun hmem => ?_, hnodup⟩, ?_⟩
    · obtain ⟨m, hm, hid⟩ := List.mem_map.1 hmem
      exact hseen m hm (by rw [hid]; exact List.mem_cons_self ..)
    · intro m hm
      rcases List.mem_cons.1 hm with rfl | hm
      · exact hfresh
      · exact fun hmem => hseen m hm (List.mem_cons_of_mem _ hmem)

/-- What the gate checks of a definition as a whole. -/
structure Published (cel : Cel) (nodes : List WorkflowNode) (transitions : List WorkflowTransition) : Prop where
  ids_nodup : (nodes.map WorkflowNode.id).Nodup
  ends_known : ∀ t ∈ transitions, knownId nodes t.source = true ∧ knownId nodes t.target = true
  node : ∀ n ∈ nodes, validateNode cel nodes transitions n = .ok ()

theorem published_of_valid {cel : Cel} {nodes : List WorkflowNode} {transitions : List WorkflowTransition}
    (h : validateDefinition cel nodes transitions = .ok ()) : Published cel nodes transitions := by
  unfold validateDefinition at h
  obtain ⟨⟨⟩, hids, h⟩ := bind_ok h
  obtain ⟨_, -, h⟩ := bind_ok h
  obtain ⟨_, -, h⟩ := bind_ok h
  obtain ⟨⟨⟩, hnodes, htransitions⟩ := bind_ok h
  refine ⟨(nodup_of_checkUniqueIds hids).1, fun t ht => ?_, forM_ok hnodes⟩
  obtain ⟨_, hsource, htarget⟩ := bind_ok (forM_ok htransitions t ht)
  exact ⟨by simpa using reject_ok hsource, by simpa using reject_ok htarget⟩

theorem start_of_valid {cel : Cel} {nodes : List WorkflowNode} {transitions : List WorkflowTransition}
    (h : validateDefinition cel nodes transitions = .ok ()) :
    ∃ start, (nodes.filter fun n => n.kind == .start) = [start] := by
  unfold validateDefinition at h
  obtain ⟨_, -, h⟩ := bind_ok h
  obtain ⟨_, hstart, -⟩ := bind_ok h
  exact List.length_eq_one_iff.1 (by simpa using reject_ok hstart)

/-- Where ids are unique, a node is found under its id. -/
theorem findNode_of_nodup {nodes : List WorkflowNode} {n : WorkflowNode} (hids : (nodes.map WorkflowNode.id).Nodup)
    (hn : n ∈ nodes) : findNode nodes n.id = some n := by
  unfold findNode
  induction nodes with
  | nil => cases hn
  | cons m ms ih =>
    rw [List.map_cons, List.nodup_cons] at hids
    rcases List.mem_cons.1 hn with rfl | hn
    · simp
    · have hne : m.id ≠ n.id := fun heq => hids.1 (by rw [heq]; exact List.mem_map_of_mem hn)
      rw [List.find?_cons_of_neg (by simpa using hne)]
      exact ih hids.2 hn

theorem Published.findNode {cel : Cel} {nodes : List WorkflowNode} {transitions : List WorkflowTransition}
    (h : Published cel nodes transitions) {n : WorkflowNode} (hn : n ∈ nodes) :
    Hetuflow.findNode nodes n.id = some n :=
  findNode_of_nodup h.ids_nodup hn

end Fusions.Hetuflow
