import Fusions.Hetuflow.Core.Model

/-! Advance decisions: which node a signal, a delivery or a timeout leads to. -/
namespace Fusions.Hetuflow

/-- The CEL evaluator, a third-party crate: guards, item arrays, and the syntax check. -/
structure Cel where
  evalGuard : String → Option Json → Except String Bool
  evalArray : String → Option Json → Except String (List Json)
  validateExpression : String → Except String Unit

/-- `resolve_target` gives up beyond this depth. -/
def maxResolveDepth : Nat := 8

/-- Signals that carry a branch into its join. -/
def isJoinIncomingSignal : SignalType → Bool
  | .approved | .completed | .eventReceived => true
  | _ => false

structure ForEachFanOut where
  forEachNode : String
  joinTarget : String
  deriving DecidableEq, Repr

/-- What `resolve_target` passed on its way. `loops_passed` of the source is never written. -/
structure ResolveTrace where
  mergesPassed : List String
  forEachFanOut : Option ForEachFanOut
  deriving DecidableEq, Repr

def ResolveTrace.default : ResolveTrace := ⟨[], none⟩

def findNode (nodes : List WorkflowNode) (id : String) : Option WorkflowNode :=
  nodes.find? fun n => n.id == id

def findNextTransition (transitions : List WorkflowTransition) (fromNode : String)
    (signal : SignalType) : Option WorkflowTransition :=
  transitions.find? fun t => t.source == fromNode && t.onSignal == signal

/-- The entry activity: the first approval node, and its role. -/
def decideStart (nodes : List WorkflowNode) : Option (String × Option String) :=
  (nodes.find? fun n => n.kind == .approval).map fun n => (n.id, n.assigneeRole)

/-- Activity type of a parallel branch node; `none` for kinds that may not be a branch. -/
def splitBranchType : NodeKind → Option ActivityType
  | .approval => some .approval
  | .assignment => some .assignment
  | .eventWait => some .eventWait
  | .notification => some .notification
  | _ => none

/-- Activity type of a for-each branch template; `none` for kinds that may not be one. -/
def forEachBranchType : NodeKind → Option ActivityType
  | .approval => some .approval
  | .assignment => some .assignment
  | .eventWait => some .eventWait
  | _ => none

/-- The branches of a parallel split, in order; `none` when one of them is no legal branch. -/
def splitTargets (nodes : List WorkflowNode) : List String → Option (List ParallelTarget)
  | [] => some []
  | id :: ids => do
    let node ← findNode nodes id
    let activityType ← splitBranchType node.kind
    let rest ← splitTargets nodes ids
    some (⟨id, activityType, node.assigneeRole, none, none⟩ :: rest)

section
variable (cel : Cel) (nodes : List WorkflowNode) (transitions : List WorkflowTransition)
  (context : Option Json)

/-- The first branch whose guard is true, else the default; `none` when a guard fails first. -/
def chooseBranch (default : String) : List ConditionBranch → Option String
  | [] => some default
  | b :: bs =>
    match cel.evalGuard b.guardExpression context with
    | .ok true => some b.target
    | .ok false => chooseBranch default bs
    | .error _ => none

/-- The fan-out of a for-each node over the evaluated items. -/
def forEachTargets (itemsPath template : String) (cap : Option Int) : Option (List ParallelTarget) :=
  match cel.evalArray itemsPath context with
  | .error _ => none
  | .ok items =>
    if cap.any fun c => items.length > c.toNat then none
    else do
      let node ← findNode nodes template
      let activityType ← forEachBranchType node.kind
      some (items.mapIdx fun i payload =>
        ⟨template, activityType, node.assigneeRole, some i, some payload⟩)

/-- Resolve a target through conditions and merges. The first argument counts down from
`maxResolveDepth + 1`, so that zero is `depth > MAX_RESOLVE_DEPTH`. -/
def resolveTarget : Nat → String → List String → ResolveTrace → AdvanceOutcome × ResolveTrace
  | 0, _, _, trace => (.error, trace)
  | left + 1, targetId, visited, trace =>
    if visited.contains targetId then (.error, trace)
    else
      match findNode nodes targetId with
      | none => (.error, trace)
      | some node =>
        match node.kind with
        | .approval => (.advance targetId node.assigneeRole, trace)
        | .eventWait | .notification | .assignment | .subWorkflow | .parallelJoin =>
          (.advance targetId none, trace)
        | .merge =>
          let trace := { trace with mergesPassed := trace.mergesPassed ++ [targetId] }
          match findNextTransition transitions targetId .approved with
          | none => (.error, trace)
          | some next => resolveTarget left next.target (targetId :: visited) trace
        | .parallelSplit =>
          match node.parallelSplit with
          | none => (.error, trace)
          | some ids =>
            match splitTargets nodes ids with
            | none => (.error, trace)
            | some targets => (.advanceMulti targets, trace)
        | .forEach =>
          match node.forEach with
          | none => (.error, trace)
          | some (itemsPath, template, join, cap) =>
            let trace := { trace with forEachFanOut := some ⟨targetId, join⟩ }
            match forEachTargets cel nodes context itemsPath template cap with
            | none => (.error, trace)
            | some targets => (.advanceMulti targets, trace)
        | .endNode =>
          (.complete ((node.endResultCode.bind WorkflowResult.fromDb).getD .approved), trace)
        | .condition =>
          match node.condition with
          | none => (.error, trace)
          | some (default, branches) =>
            match chooseBranch cel context default branches with
            | none => (.error, trace)
            | some target => resolveTarget left target (targetId :: visited) trace
        | .start | .parallel | .timer => (.error, trace)

/-- `resolve_target` as its callers start it. -/
def resolve (targetId : String) : AdvanceOutcome × ResolveTrace :=
  resolveTarget cel nodes transitions context (maxResolveDepth + 1) targetId [] .default

/-- The step a signal takes from `currentNode`. -/
def decideAdvance (currentNode : String) (signal : SignalType) : AdvanceOutcome × ResolveTrace :=
  match signal with
  | .rejected => (.complete .rejected, .default)
  | .returned =>
    match findNextTransition transitions currentNode .returned with
    | some t =>
      match resolve cel nodes transitions context t.target with
      | (.advance target role, trace) => (.rework target role, trace)
      | (_, trace) => (.error, trace)
    | none => (.complete .returned, .default)
  | .resubmitted | .claimed | .reassigned => (.error, .default)
  | .approved | .eventReceived | .completed =>
    match findNextTransition transitions currentNode signal with
    | some t => resolve cel nodes transitions context t.target
    | none => (.error, .default)

/-- The step an expired event wait takes. -/
def decideEventWaitTimeout (currentNode : String) : AdvanceOutcome × ResolveTrace :=
  match findNode nodes currentNode with
  | none => (.error, .default)
  | some node =>
    match node.eventWait with
    | some (_, _, some target) => resolve cel nodes transitions context target
    | _ => (.error, .default)

end

/-- Where a resolved target can come out. -/
inductive Resolved (cel : Cel) (nodes : List WorkflowNode) (context : Option Json) :
    AdvanceOutcome → ResolveTrace → Prop where
  | node {id : String} {role : Option String} {node : WorkflowNode} {trace : ResolveTrace} :
      findNode nodes id = some node → node.kind ≠ .parallelSplit → node.kind ≠ .forEach →
      trace.forEachFanOut = none → Resolved cel nodes context (.advance id role) trace
  | split {node : WorkflowNode} {ids : List String} {targets : List ParallelTarget} {trace : ResolveTrace} :
      node ∈ nodes → node.parallelSplit = some ids → splitTargets nodes ids = some targets →
      trace.forEachFanOut = none → Resolved cel nodes context (.advanceMulti targets) trace
  | forEach {id path template join : String} {node : WorkflowNode} {cap : Option Int}
      {targets : List ParallelTarget} {trace : ResolveTrace} :
      findNode nodes id = some node → node.forEach = some (path, template, join, cap) →
      forEachTargets cel nodes context path template cap = some targets →
      trace.forEachFanOut = some ⟨id, join⟩ → Resolved cel nodes context (.advanceMulti targets) trace
  | finished {result : WorkflowResult} {trace : ResolveTrace} : Resolved cel nodes context (.complete result) trace
  | error {trace : ResolveTrace} : Resolved cel nodes context .error trace

section
variable {cel : Cel} {nodes : List WorkflowNode} {transitions : List WorkflowTransition}
  {context : Option Json}

private theorem resolveTarget_resolved {left : Nat} {targetId : String} {visited : List String}
    {trace : ResolveTrace} (h : trace.forEachFanOut = none) :
    Resolved cel nodes context (resolveTarget cel nodes transitions context left targetId visited trace).1
      (resolveTarget cel nodes transitions context left targetId visited trace).2 := by
  fun_induction resolveTarget cel nodes transitions context left targetId visited trace
  case case4 hfind hkind => exact .node hfind (by simp [hkind]) (by simp [hkind]) h
  case case5 hfind hkind => exact .node hfind (by simp [hkind]) (by simp [hkind]) h
  case case6 hfind hkind => exact .node hfind (by simp [hkind]) (by simp [hkind]) h
  case case7 hfind hkind => exact .node hfind (by simp [hkind]) (by simp [hkind]) h
  case case8 hfind hkind => exact .node hfind (by simp [hkind]) (by simp [hkind]) h
  case case9 hfind hkind => exact .node hfind (by simp [hkind]) (by simp [hkind]) h
  case case11 ih => exact ih h
  case case14 hfind _ _ hsplit _ htargets => exact .split (List.mem_of_find?_eq_some hfind) hsplit htargets h
  case case17 hfind _ _ _ _ _ hforEach _ _ htargets => exact .forEach hfind hforEach htargets rfl
  case case18 => exact .finished
  case case21 ih => exact ih h
  all_goals exact .error

theorem resolve_resolved (targetId : String) :
    Resolved cel nodes context (resolve cel nodes transitions context targetId).1
      (resolve cel nodes transitions context targetId).2 :=
  resolveTarget_resolved rfl

/-- A signal other than RETURNED comes out where its transition leads. -/
theorem decideAdvance_resolved {currentNode : String} {signal : SignalType} (h : signal ≠ .returned) :
    Resolved cel nodes context (decideAdvance cel nodes transitions context currentNode signal).1
      (decideAdvance cel nodes transitions context currentNode signal).2 := by
  unfold decideAdvance
  cases signal with
  | rejected => exact .finished
  | returned => exact absurd rfl h
  | resubmitted | claimed | reassigned => exact .error
  | approved | eventReceived | completed =>
    dsimp only
    split
    · exact resolve_resolved _
    · exact .error

/-- A decision comes out where its transition leads, or it is a rework. -/
def Decided (cel : Cel) (nodes : List WorkflowNode) (context : Option Json) (outcome : AdvanceOutcome)
    (trace : ResolveTrace) : Prop :=
  Resolved cel nodes context outcome trace ∨ ∃ target role, outcome = .rework target role

theorem decideAdvance_decided (currentNode : String) (signal : SignalType) :
    Decided cel nodes context (decideAdvance cel nodes transitions context currentNode signal).1
      (decideAdvance cel nodes transitions context currentNode signal).2 := by
  by_cases h : signal = .returned
  · subst h
    unfold decideAdvance
    dsimp only
    split
    · split
      · exact .inr ⟨_, _, rfl⟩
      · exact .inl .error
    · exact .inl .finished
  · exact .inl (decideAdvance_resolved h)

/-- Only a RETURNED signal hands an instance back. -/
theorem signal_of_rework {currentNode target : String} {signal : SignalType} {role : Option String}
    (h : (decideAdvance cel nodes transitions context currentNode signal).1 = .rework target role) :
    signal = .returned := by
  refine Classical.byContradiction fun hne => ?_
  have hres : Resolved cel nodes context
      (decideAdvance cel nodes transitions context currentNode signal).1 _ := decideAdvance_resolved hne
  rw [h] at hres
  cases hres

/-- Only a RETURNED edge hands an instance back. -/
theorem decideAdvance_rework {currentNode target : String} {signal : SignalType} {role : Option String}
    (h : (decideAdvance cel nodes transitions context currentNode signal).1 = .rework target role) :
    ∃ t ∈ transitions, t.onSignal = .returned := by
  obtain rfl := signal_of_rework h
  unfold decideAdvance at h
  dsimp only at h
  split at h
  · next t ht =>
    have hsel := List.find?_some ht
    simp only [Bool.and_eq_true, beq_iff_eq] at hsel
    exact ⟨t, List.mem_of_find?_eq_some ht, hsel.2⟩
  · cases h

theorem decideEventWaitTimeout_resolved (currentNode : String) :
    Resolved cel nodes context (decideEventWaitTimeout cel nodes transitions context currentNode).1
      (decideEventWaitTimeout cel nodes transitions context currentNode).2 := by
  unfold decideEventWaitTimeout
  split
  · exact .error
  · split
    · exact resolve_resolved _
    · exact .error

end

/-- The completion signal of a branch node, by its kind. -/
def completionSignal : NodeKind → Option SignalType
  | .approval => some .approved
  | .assignment | .notification => some .completed
  | .eventWait => some .eventReceived
  | _ => none

/-- A node that takes the signal of a completed branch. -/
def WorkflowNode.TakesSignal (node : WorkflowNode) : Prop := (completionSignal node.kind).isSome = true

/-- Every activity an outcome schedules is on a node that takes a signal; an advance may lead to a join
or a sub-workflow instead. -/
def AdvanceOutcome.Lands (nodes : List WorkflowNode) : AdvanceOutcome → Prop
  | .advance target _ => ∃ node, findNode nodes target = some node ∧
      (node.TakesSignal ∨ node.kind = .parallelJoin ∨ node.kind = .subWorkflow)
  | .rework target _ => ∃ node, findNode nodes target = some node ∧ (node.TakesSignal ∨ node.kind = .subWorkflow)
  | .advanceMulti targets => ∀ t ∈ targets, ∃ node, findNode nodes t.nodeId = some node ∧ node.TakesSignal
  | _ => True

private theorem takesSignal_of_split {nodes : List WorkflowNode} {ids : List String} {targets : List ParallelTarget}
    (h : splitTargets nodes ids = some targets) :
    ∀ t ∈ targets, ∃ node, findNode nodes t.nodeId = some node ∧ node.TakesSignal := by
  induction ids generalizing targets with
  | nil =>
    cases h
    simp
  | cons id ids ih =>
    simp only [splitTargets, Option.bind_eq_bind, Option.bind_eq_some_iff] at h
    obtain ⟨node, hfind, activityType, htype, rest, hrest, htargets⟩ := h
    cases htargets
    refine List.forall_mem_cons.2 ⟨⟨node, hfind, ?_⟩, ih hrest⟩
    unfold WorkflowNode.TakesSignal
    cases hkind : node.kind <;> simp [hkind, splitBranchType] at htype <;> rfl

private theorem takesSignal_of_forEach {cel : Cel} {nodes : List WorkflowNode} {context : Option Json}
    {path template : String} {cap : Option Int} {targets : List ParallelTarget}
    (h : forEachTargets cel nodes context path template cap = some targets) :
    ∀ t ∈ targets, ∃ node, findNode nodes t.nodeId = some node ∧ node.TakesSignal := by
  unfold forEachTargets at h
  split at h
  · cases h
  split at h
  · cases h
  simp only [Option.bind_eq_bind, Option.bind_eq_some_iff] at h
  obtain ⟨node, hfind, activityType, htype, htargets⟩ := h
  cases htargets
  intro t ht
  obtain ⟨i, hi, rfl⟩ := List.mem_mapIdx.1 ht
  refine ⟨node, hfind, ?_⟩
  unfold WorkflowNode.TakesSignal
  cases hkind : node.kind <;> simp [hkind, forEachBranchType] at htype <;> rfl

section
variable {cel : Cel} {nodes : List WorkflowNode} {transitions : List WorkflowTransition} {context : Option Json}

private theorem resolveTarget_lands (left : Nat) (targetId : String) (visited : List String) (trace : ResolveTrace) :
    (resolveTarget cel nodes transitions context left targetId visited trace).1.Lands nodes := by
  fun_induction resolveTarget cel nodes transitions context left targetId visited trace
  case case4 hfind hkind => exact ⟨_, hfind, .inl (by rw [WorkflowNode.TakesSignal, hkind]; rfl)⟩
  case case5 hfind hkind => exact ⟨_, hfind, .inl (by rw [WorkflowNode.TakesSignal, hkind]; rfl)⟩
  case case6 hfind hkind => exact ⟨_, hfind, .inl (by rw [WorkflowNode.TakesSignal, hkind]; rfl)⟩
  case case7 hfind hkind => exact ⟨_, hfind, .inl (by rw [WorkflowNode.TakesSignal, hkind]; rfl)⟩
  case case8 hfind hkind => exact ⟨_, hfind, .inr (.inr hkind)⟩
  case case9 hfind hkind => exact ⟨_, hfind, .inr (.inl hkind)⟩
  case case11 ih => exact ih
  case case14 htargets => exact takesSignal_of_split htargets
  case case17 htargets => exact takesSignal_of_forEach htargets
  case case21 ih => exact ih
  all_goals exact trivial

theorem resolve_lands (targetId : String) : (resolve cel nodes transitions context targetId).1.Lands nodes :=
  resolveTarget_lands ..

/-- Every decision lands, but for a hand-back that resolves to a join. -/
theorem decideAdvance_lands {currentNode : String} {signal : SignalType}
    (h : ∀ target role join,
      (decideAdvance cel nodes transitions context currentNode signal).1 = .rework target role →
      findNode nodes target = some join → join.kind ≠ .parallelJoin) :
    (decideAdvance cel nodes transitions context currentNode signal).1.Lands nodes := by
  unfold decideAdvance at h ⊢
  cases signal with
  | rejected | resubmitted | claimed | reassigned => exact trivial
  | approved | eventReceived | completed =>
    dsimp only
    split
    · exact resolve_lands _
    · exact trivial
  | returned =>
    dsimp only at h ⊢
    split
    · next t ht =>
      have hlands : (resolve cel nodes transitions context t.target).1.Lands nodes := resolve_lands t.target
      rw [ht] at h
      dsimp only at h
      split
      · next target role trace hresolve =>
        rw [hresolve] at hlands h
        obtain ⟨node, hfind, hkind⟩ := hlands
        have hjoin := h target role node rfl hfind
        exact ⟨node, hfind, hkind.imp_right fun hkind => hkind.resolve_left hjoin⟩
      · exact trivial
    · exact trivial

theorem decideEventWaitTimeout_lands (currentNode : String) :
    (decideEventWaitTimeout cel nodes transitions context currentNode).1.Lands nodes := by
  unfold decideEventWaitTimeout
  split
  · exact trivial
  · split
    · exact resolve_lands _
    · exact trivial

end
end Fusions.Hetuflow
