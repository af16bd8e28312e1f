import Mathlib.Data.List.Forall2
import Fusions.Hetuflow.Runtime.Validate

/-! Routes through a definition: the walks over merges and conditions, and the nodes they land on, declared
without `resolve_target`, which takes exactly these. -/
namespace Fusions.Hetuflow

/-- The first element of a list with a property. -/
def FirstWith {α : Type} (p : α → Prop) (xs : List α) (x : α) : Prop :=
  ∃ pre post, xs = pre ++ x :: post ∧ p x ∧ ∀ y ∈ pre, ¬ p y

/-- The node under an id. -/
def IsNode (nodes : List WorkflowNode) (id : String) : WorkflowNode → Prop :=
  FirstWith (fun n => n.id = id) nodes

/-- The edge that a node takes on a signal. -/
def IsEdge (transitions : List WorkflowTransition) (id : String) (signal : SignalType) : WorkflowTransition → Prop :=
  FirstWith (fun t => t.source = id ∧ t.onSignal = signal) transitions

def isMerge (nodes : List WorkflowNode) (id : String) : Bool :=
  (findNode nodes id).any fun n => n.kind == .merge

section
variable (cel : Cel) (nodes : List WorkflowNode) (transitions : List WorkflowTransition)
  (context : Option Json)

/-- Where a condition goes: along the first branch whose guard is true, all before it being false, else
to its default. -/
inductive Takes (default : String) (branches : List ConditionBranch) : String → Prop where
  | branch {pre post : List ConditionBranch} {b : ConditionBranch} : branches = pre ++ b :: post →
      (∀ c ∈ pre, cel.evalGuard c.guardExpression context = .ok false) →
      cel.evalGuard b.guardExpression context = .ok true → Takes default branches b.target
  | default : (∀ c ∈ branches, cel.evalGuard c.guardExpression context = .ok false) → Takes default branches default

/-- One hop, through a merge or a condition. -/
inductive Hop : String → String → Prop where
  | merge {id : String} {node : WorkflowNode} {t : WorkflowTransition} : IsNode nodes id node →
      node.kind = .merge → IsEdge transitions id .approved t → Hop id t.target
  | condition {id default target : String} {node : WorkflowNode} {branches : List ConditionBranch} :
      IsNode nodes id node → node.condition = some (default, branches) →
      Takes cel context default branches target → Hop id target

/-- The nodes of a walk, from the first to the last. -/
inductive Walk : String → List String → String → Prop where
  | here {id : String} : Walk id [id] id
  | hop {id next last : String} {walk : List String} : Hop cel nodes transitions context id next →
      Walk next walk last → Walk id (id :: walk) last

/-- A branch of a split, as an activity. -/
def IsSplitTarget (id : String) (target : ParallelTarget) : Prop :=
  ∃ node activityType, IsNode nodes id node ∧ splitBranchType node.kind = some activityType ∧
    target = ⟨id, activityType, node.assigneeRole, none, none⟩

/-- Kinds that an advance waits at, without a role. -/
def NodeKind.waits : NodeKind → Bool
  | .eventWait | .notification | .assignment | .subWorkflow | .parallelJoin => true
  | _ => false

/-- A node that a walk may end on, what it yields, and the for-each it is. -/
inductive LandsOn : String → AdvanceOutcome → Option ForEachFanOut → Prop where
  | approval {id : String} {node : WorkflowNode} : IsNode nodes id node → node.kind = .approval →
      LandsOn id (.advance id node.assigneeRole) none
  | waits {id : String} {node : WorkflowNode} : IsNode nodes id node → node.kind.waits = true →
      LandsOn id (.advance id none) none
  | split {id : String} {node : WorkflowNode} {ids : List String} {targets : List ParallelTarget} :
      IsNode nodes id node → node.parallelSplit = some ids → List.Forall₂ (IsSplitTarget nodes) ids targets →
      LandsOn id (.advanceMulti targets) none
  | forEach {id path template join : String} {node branch : WorkflowNode} {cap : Option Int} {items : List Json}
      {activityType : ActivityType} : IsNode nodes id node → node.forEach = some (path, template, join, cap) →
      cel.evalArray path context = .ok items → (∀ c ∈ cap, items.length ≤ c.toNat) →
      IsNode nodes template branch → forEachBranchType branch.kind = some activityType →
      LandsOn id (.advanceMulti (items.mapIdx fun i item =>
        ⟨template, activityType, branch.assigneeRole, some i, some item⟩)) (some ⟨id, join⟩)
  | finished {id : String} {node : WorkflowNode} : IsNode nodes id node → node.kind = .endNode →
      LandsOn id (.complete ((node.endResultCode.bind WorkflowResult.fromDb).getD .approved)) none

end

section
variable {cel : Cel} {nodes : List WorkflowNode} {transitions : List WorkflowTransition}
  {context : Option Json} {id target default : String} {node : WorkflowNode}

theorem find?_eq_some_iff_firstWith {α : Type} {p : α → Bool} {q : α → Prop} {xs : List α} {x : α}
    (h : ∀ y, p y = true ↔ q y) : xs.find? p = some x ↔ FirstWith q xs x := by
  rw [List.find?_eq_some_iff_append]
  constructor
  · rintro ⟨hx, pre, post, rfl, hpre⟩
    exact ⟨pre, post, rfl, (h x).1 hx, fun y hy hq => by simpa [(h y).2 hq] using hpre y hy⟩
  · rintro ⟨pre, post, rfl, hx, hpre⟩
    exact ⟨(h x).2 hx, pre, post, rfl, fun y hy => by simpa using mt (h y).1 (hpre y hy)⟩

theorem findNode_eq_some_iff : findNode nodes id = some node ↔ IsNode nodes id node :=
  find?_eq_some_iff_firstWith fun _ => beq_iff_eq

theorem findNextTransition_eq_some_iff {signal : SignalType} {t : WorkflowTransition} :
    findNextTransition transitions id signal = some t ↔ IsEdge transitions id signal t :=
  find?_eq_some_iff_firstWith fun t => by simp

theorem chooseBranch_eq_some_iff {branches : List ConditionBranch} :
    chooseBranch cel context default branches = some target ↔ Takes cel context default branches target := by
  constructor
  · intro h
    induction branches with
    | nil =>
      cases h
      exact .default (by simp)
    | cons b bs ih =>
      unfold chooseBranch at h
      split at h
      · next htrue =>
        cases h
        exact .branch (List.nil_append _).symm (by simp) htrue
      · next hfalse =>
        cases ih h with
        | branch hsplit hpre htrue =>
          exact .branch (by rw [hsplit]; rfl) (List.forall_mem_cons.2 ⟨hfalse, hpre⟩) htrue
        | default hall => exact .default (List.forall_mem_cons.2 ⟨hfalse, hall⟩)
      · cases h
  · intro h
    induction branches with
    | nil =>
      cases h with
      | branch hsplit => simp at hsplit
      | default => rfl
    | cons b bs ih =>
      cases h with
      | @branch pre post c hsplit hpre htrue =>
        cases pre with
        | nil =>
          cases hsplit
          simp [chooseBranch, htrue]
        | cons d pre =>
          cases hsplit
          have hd := hpre b (List.mem_cons_self ..)
          simp only [chooseBranch, hd]
          exact ih (.branch rfl (fun c hc => hpre c (List.mem_cons_of_mem _ hc)) htrue)
      | default hall =>
        simp only [chooseBranch, hall b (List.mem_cons_self ..)]
        exact ih (.default fun c hc => hall c (List.mem_cons_of_mem _ hc))

theorem splitTargets_eq_some_iff {ids : List String} {targets : List ParallelTarget} :
    splitTargets nodes ids = some targets ↔ List.Forall₂ (IsSplitTarget nodes) ids targets := by
  induction ids generalizing targets with
  | nil => simp [splitTargets, eq_comm]
  | cons id ids ih =>
    simp only [splitTargets, Option.bind_eq_bind, Option.bind_eq_some_iff, Option.some.injEq, findNode_eq_some_iff, ih]
    constructor
    · rintro ⟨node, hnode, activityType, htype, rest, hrest, rfl⟩
      exact .cons ⟨node, activityType, hnode, htype, rfl⟩ hrest
    · rintro (_ | ⟨⟨node, activityType, hnode, htype, rfl⟩, hrest⟩)
      exact ⟨node, hnode, activityType, htype, _, hrest, rfl⟩

theorem forEachTargets_eq_some_iff {path template : String} {cap : Option Int} {targets : List ParallelTarget} :
    forEachTargets cel nodes context path template cap = some targets ↔
      ∃ items branch activityType, cel.evalArray path context = .ok items ∧ (∀ c ∈ cap, items.length ≤ c.toNat) ∧
        IsNode nodes template branch ∧ forEachBranchType branch.kind = some activityType ∧
        targets = items.mapIdx fun i item => ⟨template, activityType, branch.assigneeRole, some i, some item⟩ := by
  unfold forEachTargets
  cases hitems : cel.evalArray path context with
  | error e => simp
  | ok items =>
    have hcap : (cap.any fun c => items.length > c.toNat) = false ↔ ∀ c ∈ cap, items.length ≤ c.toNat := by
      cases cap <;> simp
    dsimp only
    split
    · next hover =>
      refine ⟨nofun, ?_⟩
      rintro ⟨_, branch, activityType, hitems', hwithin, -⟩
      cases hitems'
      rw [hcap.2 hwithin] at hover
      cases hover
    · next hwithin =>
      simp only [Option.bind_eq_bind, Option.bind_eq_some_iff, Option.some.injEq, findNode_eq_some_iff]
      constructor
      · rintro ⟨branch, hbranch, activityType, htype, rfl⟩
        exact ⟨items, branch, activityType, rfl, hcap.1 (Bool.eq_false_iff.2 hwithin), hbranch, htype, rfl⟩
      · rintro ⟨_, branch, activityType, hitems', -, hbranch, htype, rfl⟩
        cases hitems'
        exact ⟨branch, hbranch, activityType, htype, rfl⟩

end

section
variable {cel : Cel} {nodes : List WorkflowNode} {transitions : List WorkflowTransition} {context : Option Json}
  {left : Nat} {id next last : String} {visited walk : List String} {trace trace' : ResolveTrace}
  {outcome : AdvanceOutcome} {fan : Option ForEachFanOut} {node : WorkflowNode}

theorem kind_of_condition {default : String} {branches : List ConditionBranch}
    (h : node.condition = some (default, branches)) : node.kind = .condition :=
  WorkflowNode.isSome_condition_iff.1 (by rw [h]; rfl)

theorem kind_of_parallelSplit {ids : List String} (h : node.parallelSplit = some ids) :
    node.kind = .parallelSplit :=
  WorkflowNode.isSome_parallelSplit_iff.1 (by rw [h]; rfl)

theorem kind_of_forEach {path template join : String} {cap : Option Int}
    (h : node.forEach = some (path, template, join, cap)) : node.kind = .forEach :=
  WorkflowNode.isSome_forEach_iff.1 (by rw [h]; rfl)

private theorem isMerge_eq (h : IsNode nodes id node) : isMerge nodes id = (node.kind == .merge) := by
  rw [isMerge, findNode_eq_some_iff.2 h]
  rfl

/-- A hop is taken, and a merge on it is noted. -/
private theorem resolveTarget_hop (h : Hop cel nodes transitions context id next) (hfresh : id ∉ visited) :
    resolveTarget cel nodes transitions context (left + 1) id visited trace =
      resolveTarget cel nodes transitions context left next (id :: visited)
        { trace with mergesPassed := trace.mergesPassed ++ [id].filter (isMerge nodes) } := by
  have hvisited : visited.contains id = false := by simpa using hfresh
  cases h with
  | merge hnode hkind hedge =>
    have hmerge : isMerge nodes id = true := by simp [isMerge_eq hnode, hkind]
    rw [resolveTarget, hvisited, findNode_eq_some_iff.2 hnode]
    simp [hkind, findNextTransition_eq_some_iff.2 hedge, hmerge]
  | condition hnode hcondition htakes =>
    have hkind := kind_of_condition hcondition
    have hmerge : isMerge nodes id = false := by simp [isMerge_eq hnode, hkind]
    rw [resolveTarget, hvisited, findNode_eq_some_iff.2 hnode]
    simp [hkind, hcondition, chooseBranch_eq_some_iff.2 htakes, hmerge]

private theorem resolveTarget_landsOn (h : LandsOn cel nodes context id outcome fan) (hfresh : id ∉ visited)
    (hnone : trace.forEachFanOut = none) : resolveTarget cel nodes transitions context (left + 1) id visited trace =
      (outcome, { trace with forEachFanOut := fan }) := by
  have hvisited : visited.contains id = false := by simpa using hfresh
  have htrace : { trace with forEachFanOut := none } = trace := by rw [← hnone]
  cases h with
  | approval hnode hkind =>
    rw [resolveTarget, hvisited, findNode_eq_some_iff.2 hnode, htrace]
    simp [hkind]
  | @waits node hnode hwaits =>
    rw [resolveTarget, hvisited, findNode_eq_some_iff.2 hnode, htrace]
    cases hkind : node.kind <;> simp [hkind, NodeKind.waits] at hwaits ⊢
  | split hnode hsplit htargets =>
    rw [resolveTarget, hvisited, findNode_eq_some_iff.2 hnode, htrace]
    simp [kind_of_parallelSplit hsplit, hsplit, splitTargets_eq_some_iff.2 htargets]
  | forEach hnode hforEach hitems hcap hbranch htype =>
    have htargets := forEachTargets_eq_some_iff.2 ⟨_, _, _, hitems, hcap, hbranch, htype, rfl⟩
    rw [resolveTarget, hvisited, findNode_eq_some_iff.2 hnode]
    simp [kind_of_forEach hforEach, hforEach, htargets]
  | finished hnode hkind =>
    rw [resolveTarget, hvisited, findNode_eq_some_iff.2 hnode, htrace]
    simp [hkind]

/-- What is resolved hops on, or lands. -/
private theorem hops_or_lands (h : (resolveTarget cel nodes transitions context (left + 1) id visited trace).1 ≠ .error) :
    id ∉ visited ∧ ((∃ next, Hop cel nodes transitions context id next) ∨
      ∃ outcome fan, LandsOn cel nodes context id outcome fan) := by
  unfold resolveTarget at h
  split at h
  · exact absurd rfl h
  next hvisited =>
  refine ⟨by simpa using hvisited, ?_⟩
  split at h
  · exact absurd rfl h
  next node hfind =>
  have hnode := findNode_eq_some_iff.1 hfind
  split at h
  · next hkind => exact .inr ⟨_, _, .approval hnode hkind⟩
  · next hkind => exact .inr ⟨_, _, .waits hnode (by rw [hkind]; rfl)⟩
  · next hkind => exact .inr ⟨_, _, .waits hnode (by rw [hkind]; rfl)⟩
  · next hkind => exact .inr ⟨_, _, .waits hnode (by rw [hkind]; rfl)⟩
  · next hkind => exact .inr ⟨_, _, .waits hnode (by rw [hkind]; rfl)⟩
  · next hkind => exact .inr ⟨_, _, .waits hnode (by rw [hkind]; rfl)⟩
  · next hkind =>
    dsimp only at h
    split at h
    · exact absurd rfl h
    · next t ht => exact .inl ⟨_, .merge hnode hkind (findNextTransition_eq_some_iff.1 ht)⟩
  · split at h
    · exact absurd rfl h
    next ids hsplit =>
    split at h
    · exact absurd rfl h
    · next targets htargets => exact .inr ⟨_, _, .split hnode hsplit (splitTargets_eq_some_iff.1 htargets)⟩
  · split at h
    · exact absurd rfl h
    next path template join cap hforEach =>
    dsimp only at h
    split at h
    · exact absurd rfl h
    next targets htargets =>
    obtain ⟨items, branch, activityType, hitems, hcap, hbranch, htype, -⟩ := forEachTargets_eq_some_iff.1 htargets
    exact .inr ⟨_, _, .forEach hnode hforEach hitems hcap hbranch htype⟩
  · next hkind => exact .inr ⟨_, _, .finished hnode hkind⟩
  · split at h
    · exact absurd rfl h
    next default branches hcondition =>
    split at h
    · exact absurd rfl h
    · next target htarget => exact .inl ⟨_, .condition hnode hcondition (chooseBranch_eq_some_iff.1 htarget)⟩
  all_goals exact absurd rfl h

theorem LandsOn.ne_error (h : LandsOn cel nodes context id outcome fan) : outcome ≠ .error := by
  cases h <;> exact nofun

/-- A walk that repeats no node and stays within the depth is resolved to what it lands on. -/
private theorem resolveTarget_of_walk (hwalk : Walk cel nodes transitions context id walk last)
    (hlands : LandsOn cel nodes context last outcome fan) (hnodup : walk.Nodup) (hfresh : ∀ v ∈ walk, v ∉ visited)
    (hlength : walk.length ≤ left) (hnone : trace.forEachFanOut = none) :
    resolveTarget cel nodes transitions context left id visited trace =
      (outcome, ⟨trace.mergesPassed ++ walk.filter (isMerge nodes), fan⟩) := by
  induction hwalk generalizing left visited trace with
  | @here id =>
    obtain ⟨left, rfl⟩ : ∃ n, left = n + 1 := ⟨left - 1, by simp at hlength; omega⟩
    have hmerge : isMerge nodes id = false := by
      cases hlands with
      | approval hnode hkind | finished hnode hkind => simp [isMerge_eq hnode, hkind]
      | @waits node hnode hwaits =>
        rw [isMerge_eq hnode]
        cases hkind : node.kind <;> simp [hkind, NodeKind.waits] at hwaits ⊢
      | split hnode hsplit => simp [isMerge_eq hnode, kind_of_parallelSplit hsplit]
      | forEach hnode hforEach => simp [isMerge_eq hnode, kind_of_forEach hforEach]
    rw [resolveTarget_landsOn hlands (hfresh _ (List.mem_singleton_self _)) hnone]
    simp [hmerge]
  | @hop id next last walk hhop _ ih =>
    obtain ⟨left, rfl⟩ : ∃ n, left = n + 1 := ⟨left - 1, by simp at hlength; omega⟩
    obtain ⟨hid, hnodup⟩ := List.nodup_cons.1 hnodup
    obtain ⟨hidfresh, hfresh⟩ := List.forall_mem_cons.1 hfresh
    have hrest : ∀ v ∈ walk, v ∉ id :: visited := by
      intro v hv hmem
      rcases List.mem_cons.1 hmem with rfl | hmem
      · exact hid hv
      · exact hfresh v hv hmem
    have hpassed : ({ trace with mergesPassed := trace.mergesPassed ++ [id].filter (isMerge nodes) } :
      ResolveTrace).forEachFanOut = none := hnone
    rw [resolveTarget_hop hhop hidfresh, ih hlands hnodup hrest (by simpa using hlength) hpassed, List.append_assoc,
      ← List.filter_append, List.singleton_append]

private theorem walk_of_resolveTarget (hnone : trace.forEachFanOut = none)
    (h : (resolveTarget cel nodes transitions context left id visited trace).1 ≠ .error) :
    ∃ walk last outcome fan, Walk cel nodes transitions context id walk last ∧
      LandsOn cel nodes context last outcome fan ∧ walk.Nodup ∧ (∀ v ∈ walk, v ∉ visited) ∧ walk.length ≤ left := by
  induction left generalizing id visited trace with
  | zero => exact absurd rfl h
  | succ left ih =>
    obtain ⟨hfresh, ⟨next, hhop⟩ | ⟨outcome, fan, hlands⟩⟩ := hops_or_lands h
    · have hpassed : ({ trace with mergesPassed := trace.mergesPassed ++ [id].filter (isMerge nodes) } :
        ResolveTrace).forEachFanOut = none := hnone
      rw [resolveTarget_hop hhop hfresh] at h
      obtain ⟨walk, last, outcome, fan, hwalk, hlands, hnodup, hrest, hlength⟩ := ih hpassed h
      refine ⟨id :: walk, last, outcome, fan, .hop hhop hwalk, hlands, ?_, ?_, by simpa using hlength⟩
      · exact List.nodup_cons.2 ⟨fun hmem => hrest id hmem (List.mem_cons_self ..), hnodup⟩
      · exact List.forall_mem_cons.2 ⟨hfresh, fun v hv hmem => hrest v hv (List.mem_cons_of_mem _ hmem)⟩
    · exact ⟨[id], id, outcome, fan, .here, hlands, by simp, by simpa using hfresh, by simp⟩

theorem resolve_of_walk {target : String} (hwalk : Walk cel nodes transitions context target walk last)
    (hlands : LandsOn cel nodes context last outcome fan) (hnodup : walk.Nodup)
    (hlength : walk.length ≤ maxResolveDepth + 1) :
    resolve cel nodes transitions context target = (outcome, ⟨walk.filter (isMerge nodes), fan⟩) :=
  resolveTarget_of_walk hwalk hlands hnodup (fun _ _ => List.not_mem_nil) hlength rfl

theorem walk_of_resolve {target : String} (h : (resolve cel nodes transitions context target).1 ≠ .error) :
    ∃ walk last outcome fan, Walk cel nodes transitions context target walk last ∧
      LandsOn cel nodes context last outcome fan ∧ walk.Nodup ∧ walk.length ≤ maxResolveDepth + 1 := by
  obtain ⟨walk, last, outcome, fan, hwalk, hlands, hnodup, -, hlength⟩ := walk_of_resolveTarget rfl h
  exact ⟨walk, last, outcome, fan, hwalk, hlands, hnodup, hlength⟩

/-! A definition leaves no choice: each node hops to one other, lands, or neither. -/

theorem IsNode.unique {node' : WorkflowNode} (h : IsNode nodes id node) (h' : IsNode nodes id node') :
    node' = node :=
  Option.some.inj ((findNode_eq_some_iff.2 h').symm.trans (findNode_eq_some_iff.2 h))

theorem Hop.unique {next' : String} (h : Hop cel nodes transitions context id next)
    (h' : Hop cel nodes transitions context id next') : next' = next := by
  cases h with
  | merge hnode hkind hedge =>
    cases h' with
    | merge _ _ hedge' =>
      have hsame := (findNextTransition_eq_some_iff.2 hedge').symm.trans (findNextTransition_eq_some_iff.2 hedge)
      rw [Option.some.inj hsame]
    | condition hnode' hcondition =>
      rw [hnode.unique hnode'] at hcondition
      rw [kind_of_condition hcondition] at hkind
      cases hkind
  | condition hnode hcondition htakes =>
    cases h' with
    | merge hnode' hkind =>
      rw [hnode.unique hnode', kind_of_condition hcondition] at hkind
      cases hkind
    | condition hnode' hcondition' htakes' =>
      rw [hnode.unique hnode', hcondition] at hcondition'
      cases hcondition'
      exact Option.some.inj ((chooseBranch_eq_some_iff.2 htakes').symm.trans (chooseBranch_eq_some_iff.2 htakes))

theorem LandsOn.not_hop (h : LandsOn cel nodes context id outcome fan) :
    ¬ Hop cel nodes transitions context id next := by
  intro hhop
  have hpasses : ∃ node, IsNode nodes id node ∧ (node.kind = .merge ∨ node.kind = .condition) := by
    cases hhop with
    | merge hnode hkind => exact ⟨_, hnode, .inl hkind⟩
    | condition hnode hcondition => exact ⟨_, hnode, .inr (kind_of_condition hcondition)⟩
  obtain ⟨node, hnode, hkind⟩ := hpasses
  cases h with
  | approval hnode' hkind' | finished hnode' hkind' =>
    obtain rfl := hnode.unique hnode'
    simp [hkind'] at hkind
  | waits hnode' hwaits =>
    obtain rfl := hnode.unique hnode'
    rcases hkind with hkind | hkind <;> simp [hkind, NodeKind.waits] at hwaits
  | split hnode' hsplit =>
    obtain rfl := hnode.unique hnode'
    simp [kind_of_parallelSplit hsplit] at hkind
  | forEach hnode' hforEach =>
    obtain rfl := hnode.unique hnode'
    simp [kind_of_forEach hforEach] at hkind

/-- Two walks from one node that both go as far as they can are the same. -/
theorem Walk.unique {walk' : List String} {last' : String} (h : Walk cel nodes transitions context id walk last)
    (h' : Walk cel nodes transitions context id walk' last') (hend : ∀ v, ¬ Hop cel nodes transitions context last v)
    (hend' : ∀ v, ¬ Hop cel nodes transitions context last' v) : walk' = walk ∧ last' = last := by
  induction h generalizing walk' with
  | here =>
    cases h' with
    | here => exact ⟨rfl, rfl⟩
    | hop hhop => exact absurd hhop (hend _)
  | hop hhop _ ih =>
    cases h' with
    | here => exact absurd hhop (hend' _)
    | hop hhop' hwalk' =>
      obtain rfl := hhop.unique hhop'
      obtain ⟨rfl, rfl⟩ := ih hwalk' hend
      exact ⟨rfl, rfl⟩

end

end Fusions.Hetuflow
