import Fusions.Hetuflow.Runtime.Routes
import Fusions.Hetuflow.Contract.Joins

/-! The routing contract: what `resolve_target` takes for a walk, where a published definition dead-ends, and
whether the branches of a fan-out lead to its join. -/
namespace Fusions.Hetuflow
open Fusions.Library

section
variable {cel : Cel} {nodes : List WorkflowNode} {transitions : List WorkflowTransition} {context : Option Json}
  {id next last : String} {walk : List String} {outcome : AdvanceOutcome} {fan : Option ForEachFanOut}
  {node : WorkflowNode}

theorem LandsOn.fan_isSome_iff (h : LandsOn cel nodes context id outcome fan) :
    fan.isSome = true ↔ ∃ node, IsNode nodes id node ∧ node.kind = .forEach := by
  have hnot : ∀ {n : WorkflowNode}, IsNode nodes id n → n.kind ≠ .forEach →
      ¬ ∃ node, IsNode nodes id node ∧ node.kind = .forEach := by
    rintro n hn hkind ⟨node, hnode, hforEach⟩
    rw [hn.unique hnode] at hforEach
    exact hkind hforEach
  cases h with
  | approval hnode hkind | finished hnode hkind => simpa using hnot hnode (by simp [hkind])
  | @waits node hnode hwaits =>
    have hkind : node.kind ≠ .forEach := by
      intro hkind
      simp [hkind, NodeKind.waits] at hwaits
    simpa using hnot hnode hkind
  | split hnode hsplit => simpa using hnot hnode (by simp [kind_of_parallelSplit hsplit])
  | forEach hnode hforEach => simpa using ⟨_, hnode, kind_of_forEach hforEach⟩

private theorem LandsOn.not_start (h : LandsOn cel nodes context id outcome fan) (hnode : IsNode nodes id node) :
    node.kind ≠ .start := by
  cases h with
  | approval hnode' hkind | finished hnode' hkind =>
    rw [hnode'.unique hnode, hkind]
    exact nofun
  | waits hnode' hwaits =>
    rw [hnode'.unique hnode]
    intro hstart
    rw [hstart] at hwaits
    cases hwaits
  | split hnode' hsplit =>
    rw [hnode'.unique hnode, kind_of_parallelSplit hsplit]
    exact nofun
  | forEach hnode' hforEach =>
    rw [hnode'.unique hnode, kind_of_forEach hforEach]
    exact nofun

/-- A target is resolved exactly when a walk from it repeats no node, takes at most eight hops and lands, and
then to what it lands on. The trace has the merges of the walk in their order, and a for-each if the walk
lands on one. -/
theorem resolve_iff_walk (cel : Cel) (nodes : List WorkflowNode) (transitions : List WorkflowTransition)
    (context : Option Json) (target : String) (outcome : AdvanceOutcome) (trace : ResolveTrace) :
    (resolve cel nodes transitions context target = (outcome, trace) ∧ outcome ≠ .error) ↔
      ∃ walk last, Walk cel nodes transitions context target walk last ∧ walk.length ≤ maxResolveDepth + 1 ∧
        walk.Nodup ∧ LandsOn cel nodes context last outcome trace.forEachFanOut ∧
        trace.mergesPassed = walk.filter (isMerge nodes) ∧
        (trace.forEachFanOut.isSome = true ↔ ∃ node, IsNode nodes last node ∧ node.kind = .forEach) := by
  constructor
  · rintro ⟨h, hne⟩
    have hresolved : (resolve cel nodes transitions context target).1 ≠ .error := by rwa [h]
    obtain ⟨walk, last, o, fan, hwalk, hlands, hnodup, hlength⟩ := walk_of_resolve hresolved
    obtain ⟨rfl, rfl⟩ := Prod.mk.inj (h.symm.trans (resolve_of_walk hwalk hlands hnodup hlength))
    exact ⟨walk, last, hwalk, hlength, hnodup, hlands, rfl, hlands.fan_isSome_iff⟩
  · rintro ⟨walk, last, hwalk, hlength, hnodup, hlands, hmerges, -⟩
    refine ⟨?_, hlands.ne_error⟩
    rw [resolve_of_walk hwalk hlands hnodup hlength, ← hmerges]

end

/-- The signal that a node of this kind advances on. -/
def NodeKind.advanceSignal : NodeKind → Option SignalType
  | .approval | .merge | .parallelJoin => some .approved
  | .assignment | .notification => some .completed
  | .eventWait | .subWorkflow => some .eventReceived
  | _ => none

section
variable (cel : Cel) (nodes : List WorkflowNode) (context : Option Json)

/-- Every guard that a condition comes to evaluates to a boolean. -/
def GuardsDecide (id : String) : Prop :=
  ∀ node default branches, IsNode nodes id node → node.condition = some (default, branches) →
    ∀ pre b post, branches = pre ++ b :: post →
      (∀ c ∈ pre, cel.evalGuard c.guardExpression context = .ok false) →
      ∃ decision, cel.evalGuard b.guardExpression context = .ok decision

/-- The items of a for-each evaluate to an array within its limit. -/
def ItemsWithin (id : String) : Prop :=
  ∀ node path template join cap, IsNode nodes id node → node.forEach = some (path, template, join, cap) →
    ∃ items, cel.evalArray path context = .ok items ∧ ∀ c ∈ cap, items.length ≤ c.toNat

end

section
variable {cel : Cel} {nodes : List WorkflowNode} {transitions : List WorkflowTransition} {context : Option Json}
  {id next last : String} {walk : List String} {outcome : AdvanceOutcome} {fan : Option ForEachFanOut}
  {node n : WorkflowNode} {signal : SignalType}

theorem edge_of_hasOutgoing (h : hasOutgoing transitions id signal = true) :
    ∃ t, IsEdge transitions id signal t := by
  obtain ⟨t, ht⟩ := Option.isSome_iff_exists.1 (List.find?_isSome.2 (List.any_eq_true.1 h))
  exact ⟨t, findNextTransition_eq_some_iff.1 ht⟩

/-- A published merge has its one edge. -/
theorem edge_of_merge (h : validateMerge nodes transitions n = .ok ()) :
    ∃ t, IsEdge transitions n.id .approved t := by
  obtain ⟨_, hone, -⟩ := bind_ok h
  have hlength : (transitions.filter fun t => t.source == n.id && t.onSignal == .approved).length = 1 := by
    simpa using reject_ok hone
  obtain ⟨t, ht⟩ := List.length_eq_one_iff.1 hlength
  have hmem : t ∈ transitions.filter fun t => t.source == n.id && t.onSignal == .approved := by
    rw [ht]
    exact List.mem_singleton_self t
  exact edge_of_hasOutgoing (List.any_eq_true.2 ⟨t, List.mem_filter.1 hmem⟩)

/-- A published node has an edge for its signal. -/
theorem edge_of_valid (h : validateNode cel nodes transitions n = .ok ())
    (hsignal : n.kind.advanceSignal = some signal)
    (hwait : n.kind = .eventWait → hasOutgoing transitions n.id .eventReceived = true) :
    ∃ t, IsEdge transitions n.id signal t := by
  obtain ⟨_, -, h⟩ := bind_ok h
  have hrejected : ∀ {s : SignalType} {m : String} {u : Unit},
      reject (!hasOutgoing transitions n.id s) m = .ok u → ∃ t, IsEdge transitions n.id s t := fun hedge =>
    edge_of_hasOutgoing (by simpa using reject_ok hedge)
  cases hkind : n.kind <;> rw [hkind] at hsignal h <;> cases hsignal
  case approval =>
    obtain ⟨_, -, h⟩ := bind_ok h
    obtain ⟨_, hedge, -⟩ := bind_ok h
    exact hrejected hedge
  case notification =>
    simp only [validateNotification] at h
    split at h
    · cases h
    obtain ⟨_, -, h⟩ := bind_ok h
    obtain ⟨_, -, hedge⟩ := bind_ok h
    exact hrejected hedge
  case eventWait => exact edge_of_hasOutgoing (hwait hkind)
  case parallelJoin =>
    obtain ⟨_, -, h⟩ := bind_ok h
    obtain ⟨_, hedge, -⟩ := bind_ok h
    exact hrejected hedge
  case assignment =>
    simp only [validateAssignment] at h
    split at h
    · cases h
    obtain ⟨_, -, hedge⟩ := bind_ok h
    exact hrejected hedge
  case merge => exact edge_of_merge h
  case subWorkflow =>
    simp only [validateSubWorkflow] at h
    split at h
    · next hnone =>
      have hsome := WorkflowNode.isSome_subWorkflow_iff.2 hkind
      rw [hnone] at hsome
      cases hsome
    · obtain ⟨_, -, h⟩ := bind_ok h
      obtain ⟨_, hedge, -⟩ := bind_ok h
      exact hrejected hedge

private theorem takes_of_decides {default : String} {branches : List ConditionBranch}
    (h : ∀ pre b post, branches = pre ++ b :: post →
      (∀ c ∈ pre, cel.evalGuard c.guardExpression context = .ok false) →
      ∃ decision, cel.evalGuard b.guardExpression context = .ok decision) :
    ∃ target, Takes cel context default branches target := by
  induction branches with
  | nil => exact ⟨default, .default (by simp)⟩
  | cons b bs ih =>
    obtain ⟨decision, hdecision⟩ := h [] b bs rfl (by simp)
    cases decision with
    | true => exact ⟨b.target, .branch (List.nil_append _).symm (by simp) hdecision⟩
    | false =>
      obtain ⟨target, htarget⟩ := ih fun pre c post hsplit hpre =>
        h (b :: pre) c post (by rw [hsplit]; rfl) (List.forall_mem_cons.2 ⟨hdecision, hpre⟩)
      refine ⟨target, ?_⟩
      cases htarget with
      | branch hsplit hpre htrue =>
        exact .branch (by rw [hsplit]; rfl) (List.forall_mem_cons.2 ⟨hdecision, hpre⟩) htrue
      | default hall => exact .default (List.forall_mem_cons.2 ⟨hdecision, hall⟩)

private theorem splitTargets_of_valid {splitId : String} {join : Option String} {ids : List String}
    (h : validateSplitBranches nodes transitions splitId join ids = .ok ()) :
    ∃ targets, List.Forall₂ (IsSplitTarget nodes) ids targets := by
  induction ids generalizing join with
  | nil => exact ⟨[], .nil⟩
  | cons b rest ih =>
    obtain ⟨target, hbranch, h⟩ := bind_ok h
    have hrest : ∃ join', validateSplitBranches nodes transitions splitId join' rest = .ok () := by
      split at h
      · exact ⟨_, h⟩
      · split at h
        · exact ⟨_, h⟩
        · cases h
    obtain ⟨join', hrest⟩ := hrest
    obtain ⟨targets, htargets⟩ := ih hrest
    have htarget : ∃ target, IsSplitTarget nodes b target := by
      unfold validateSplitBranch at hbranch
      split at hbranch
      · cases hbranch
      next node hnode =>
      split at hbranch
      · cases hbranch
      next signal hsignal =>
      have htype : ∃ activityType, splitBranchType node.kind = some activityType := by
        cases hkind : node.kind <;> simp [hkind, completionSignal] at hsignal <;> exact ⟨_, rfl⟩
      obtain ⟨activityType, htype⟩ := htype
      exact ⟨_, node, activityType, findNode_eq_some_iff.1 hnode, htype, rfl⟩
    obtain ⟨target, htarget⟩ := htarget
    exact ⟨target :: targets, .cons htarget htargets⟩

/-- Where a walk over a published definition can go no further, it lands, unless on a start node. -/
private theorem lands_of_valid (h : validateNode cel nodes transitions node = .ok ()) (hnode : IsNode nodes id node)
    (hend : ∀ next, ¬ Hop cel nodes transitions context id next) (hguards : GuardsDecide cel nodes context id)
    (hitems : ItemsWithin cel nodes context id) (hstart : node.kind ≠ .start) :
    ∃ outcome fan, LandsOn cel nodes context id outcome fan := by
  have hid : node.id = id := by
    obtain ⟨pre, post, -, hid, -⟩ := hnode
    exact hid
  obtain ⟨_, -, h⟩ := bind_ok h
  cases hkind : node.kind <;> rw [hkind] at h
  case start => exact absurd hkind hstart
  case approval => exact ⟨_, _, .approval hnode hkind⟩
  case endNode => exact ⟨_, _, .finished hnode hkind⟩
  case eventWait | notification | assignment | subWorkflow | parallelJoin =>
    exact ⟨_, _, .waits hnode (by rw [hkind]; rfl)⟩
  case parallel | timer => cases h
  case merge =>
    obtain ⟨t, ht⟩ := edge_of_merge h
    rw [hid] at ht
    exact absurd (.merge hnode hkind ht) (hend t.target)
  case condition =>
    obtain ⟨⟨default, branches⟩, hcondition⟩ :=
      Option.isSome_iff_exists.1 (WorkflowNode.isSome_condition_iff.2 hkind)
    obtain ⟨target, htarget⟩ := takes_of_decides (hguards node default branches hnode hcondition)
    exact absurd (.condition hnode hcondition htarget) (hend target)
  case parallelSplit =>
    obtain ⟨ids, hsplit⟩ := Option.isSome_iff_exists.1 (WorkflowNode.isSome_parallelSplit_iff.2 hkind)
    simp only [validateParallelSplit, hsplit] at h
    obtain ⟨_, -, hbranches⟩ := bind_ok h
    obtain ⟨targets, htargets⟩ := splitTargets_of_valid hbranches
    exact ⟨_, _, .split hnode hsplit htargets⟩
  case forEach =>
    obtain ⟨⟨path, template, join, cap⟩, hforEach⟩ :=
      Option.isSome_iff_exists.1 (WorkflowNode.isSome_forEach_iff.2 hkind)
    obtain ⟨⟨branch, activityType, hfind, htype⟩, -⟩ := forEach_of_valid h hforEach
    have hbranch := findNode_eq_some_iff.1 hfind
    obtain ⟨items, harray, hcap⟩ := hitems node path template join cap hnode hforEach
    exact ⟨_, _, .forEach hnode hforEach harray hcap hbranch htype⟩

private theorem isNode_of_known (h : knownId nodes id = true) : ∃ node, IsNode nodes id node := by
  obtain ⟨node, hnode⟩ := Option.isSome_iff_exists.1 (List.find?_isSome.2 (List.any_eq_true.1 h))
  exact ⟨node, findNode_eq_some_iff.1 hnode⟩

/-- The targets of a published condition are nodes. -/
private theorem known_of_takes {default target : String} {branches : List ConditionBranch}
    (h : validateCondition cel nodes n = .ok ()) (hcondition : n.condition = some (default, branches))
    (htakes : Takes cel context default branches target) : knownId nodes target = true := by
  simp only [validateCondition, hcondition] at h
  obtain ⟨_, -, h⟩ := bind_ok h
  obtain ⟨_, hdefault, hbranches⟩ := bind_ok h
  cases htakes with
  | @branch pre post b hsplit =>
    obtain ⟨_, htarget, -⟩ := bind_ok (forM_ok hbranches b (by rw [hsplit]; simp))
    simpa using reject_ok htarget
  | default => simpa using reject_ok hdefault

private theorem known_of_hop (h : Published cel nodes transitions)
    (hhop : Hop cel nodes transitions context id next) : knownId nodes next = true := by
  cases hhop with
  | @merge _ t _ _ hedge =>
    obtain ⟨pre, post, hsplit, -⟩ := hedge
    exact (h.ends_known t (by rw [hsplit]; simp)).2
  | @condition default _ node branches hnode hcondition htakes =>
    have hmem : node ∈ nodes := List.mem_of_find?_eq_some (findNode_eq_some_iff.2 hnode)
    obtain ⟨_, -, hvalid⟩ := bind_ok (h.node node hmem)
    rw [kind_of_condition hcondition] at hvalid
    exact known_of_takes hvalid hcondition htakes

private theorem Walk.last_mem (h : Walk cel nodes transitions context id walk last) : last ∈ walk := by
  induction h with
  | here => exact List.mem_singleton_self _
  | hop _ _ ih => exact List.mem_cons_of_mem _ ih

private theorem known_of_walk (h : Published cel nodes transitions)
    (hwalk : Walk cel nodes transitions context id walk last) (hid : knownId nodes id = true) :
    knownId nodes last = true := by
  induction hwalk with
  | here => exact hid
  | hop hhop _ ih => exact ih (known_of_hop h hhop)

private theorem decideAdvance_of_edge {t : WorkflowTransition} (h : isJoinIncomingSignal signal = true)
    (hedge : IsEdge transitions id signal t) : decideAdvance cel nodes transitions context id signal =
      resolve cel nodes transitions context t.target := by
  have hfind := findNextTransition_eq_some_iff.2 hedge
  cases signal <;> cases h <;> simp only [decideAdvance, hfind]

private theorem edge_of_decideAdvance (h : isJoinIncomingSignal signal = true)
    (hne : (decideAdvance cel nodes transitions context id signal).1 ≠ .error) :
    ∃ t, IsEdge transitions id signal t := by
  cases hfind : findNextTransition transitions id signal with
  | none => cases signal <;> cases h <;> simp [decideAdvance, hfind] at hne
  | some t => exact ⟨t, findNextTransition_eq_some_iff.1 hfind⟩

private theorem NodeKind.advanceSignal_incoming {kind : NodeKind} (h : kind.advanceSignal = some signal) :
    isJoinIncomingSignal signal = true := by
  cases kind <;> cases h <;> rfl

/-- A published definition routes every node's signal along an edge of the node; where the guards and the items on
the way evaluate, and the walk from there is short and repeats no node, the decision is an error exactly if the
walk ends on a start node. -/
theorem routes_unless_start (h : validateDefinition cel nodes transitions = .ok ()) (hn : n ∈ nodes)
    (hsignal : n.kind.advanceSignal = some signal)
    (hwait : n.kind = .eventWait → hasOutgoing transitions n.id .eventReceived = true) :
    ∃ t, IsEdge transitions n.id signal t ∧ ∀ walk last, Walk cel nodes transitions context t.target walk last →
      (∀ next, ¬ Hop cel nodes transitions context last next) → walk.Nodup → walk.length ≤ maxResolveDepth + 1 →
      (∀ id ∈ walk, GuardsDecide cel nodes context id) → ItemsWithin cel nodes context last →
      ((decideAdvance cel nodes transitions context n.id signal).1 ≠ .error ↔
        ∀ node, IsNode nodes last node → node.kind ≠ .start) := by
  have hpublished := published_of_valid h
  obtain ⟨t, ht⟩ := edge_of_valid (hpublished.node n hn) hsignal hwait
  refine ⟨t, ht, fun walk last hwalk hend hnodup hlength hguards hitems => ?_⟩
  rw [decideAdvance_of_edge (NodeKind.advanceSignal_incoming hsignal) ht]
  constructor
  · intro hne node hnode hstart
    obtain ⟨walk', last', outcome, fan, hwalk', hlands, -⟩ := walk_of_resolve hne
    obtain ⟨-, rfl⟩ := hwalk.unique hwalk' hend fun _ => hlands.not_hop
    exact hlands.not_start hnode hstart
  · intro hstart
    obtain ⟨pre, post, hsplit, -⟩ := id ht
    have hknown : knownId nodes t.target = true := (hpublished.ends_known t (by rw [hsplit]; simp)).2
    obtain ⟨node, hnode⟩ := isNode_of_known (known_of_walk hpublished hwalk hknown)
    have hmem : node ∈ nodes := List.mem_of_find?_eq_some (findNode_eq_some_iff.2 hnode)
    obtain ⟨outcome, fan, hlands⟩ := lands_of_valid (hpublished.node node hmem) hnode hend (hguards last hwalk.last_mem)
      hitems (hstart node hnode)
    rw [resolve_of_walk hwalk hlands hnodup hlength]
    exact hlands.ne_error

end

/-- An assignment's edge is found behind one for another signal, and leads over a condition to the end. -/
theorem routes_unless_start_condition :
    let assignment := Sample.node "a" (.assignment ⟨none, some "desk", none⟩)
    let definition := Sample.definition [assignment, Sample.node "c" (.condition "end" [])]
      [Sample.approved "a" "start", ⟨"a", "c", .completed⟩]
    (decideAdvance Sample.cel definition.nodes definition.transitions none "a" .completed).1 ≠ .error := by
  intro assignment definition
  obtain ⟨t, hedge, hroutes⟩ := @routes_unless_start Sample.cel definition.nodes definition.transitions none assignment
    .completed (by decide) (by decide) rfl nofun
  obtain rfl : ⟨"a", "c", .completed⟩ = t :=
    Option.some.inj ((by decide : _ = some _).symm.trans (findNextTransition_eq_some_iff.2 hedge))
  have hc : IsNode definition.nodes "c" (Sample.node "c" (.condition "end" [])) := findNode_eq_some_iff.1 rfl
  have hend : IsNode definition.nodes "end" (Sample.node "end" (.endNode none)) := findNode_eq_some_iff.1 rfl
  refine (hroutes ["c", "end"] "end" (.hop (.condition hc rfl (.default (by simp))) .here) ?_ (by decide) (by decide)
    ?_ ?_).2 ?_
  · exact fun next => (LandsOn.finished hend rfl).not_hop
  · rintro id hid node default branches hnode hcondition pre b post hsplit
    simp only [List.mem_cons, List.not_mem_nil, or_false] at hid
    rcases hid with rfl | rfl
    · rw [← hnode.unique hc] at hcondition
      cases hcondition
      simp at hsplit
    · rw [← hnode.unique hend] at hcondition
      cases hcondition
  · rintro node path template join cap hnode hforEach
    rw [← hnode.unique hend] at hforEach
    cases hforEach
  · intro node hnode
    rw [← hnode.unique hend]
    decide

/-- An edge into the start node is published and cannot be taken: the walk of no hop stays on it. -/
theorem approval_into_start_errs :
    let definition := Sample.definition [Sample.approval "a"] [Sample.approved "a" "start"]
    validateDefinition Sample.cel definition.nodes definition.transitions = .ok () ∧
      Sample.approval "a" ∈ definition.nodes ∧ findNextTransition definition.transitions "a" .approved =
        some (Sample.approved "a" "start") ∧
      Walk Sample.cel definition.nodes definition.transitions none "start" ["start"] "start" ∧
      (∀ next, ¬ Hop Sample.cel definition.nodes definition.transitions none "start" next) ∧
      (∀ id, GuardsDecide Sample.cel definition.nodes none id ∧ ItemsWithin Sample.cel definition.nodes none id) ∧
      (decideAdvance Sample.cel definition.nodes definition.transitions none "a" .approved).1 = .error := by
  intro definition
  have hnodes : ∀ node ∈ definition.nodes, node.condition = none ∧ node.forEach = none ∧ node.kind ≠ .merge := by
    decide
  have hmem : ∀ {id : String} {node : WorkflowNode}, IsNode definition.nodes id node → node ∈ definition.nodes :=
    fun hnode => List.mem_of_find?_eq_some (findNode_eq_some_iff.2 hnode)
  refine ⟨by decide, by decide, by decide, .here, ?_, fun id => ⟨?_, ?_⟩, rfl⟩
  · intro next hhop
    cases hhop with
    | merge hnode hkind => exact (hnodes _ (hmem hnode)).2.2 hkind
    | condition hnode hcondition => simp [(hnodes _ (hmem hnode)).1] at hcondition
  · intro node default branches hnode hcondition
    simp [(hnodes _ (hmem hnode)).1] at hcondition
  · intro node path template join cap hnode hforEach
    simp [(hnodes _ (hmem hnode)).2.1] at hforEach

section
variable (cel : Cel) (nodes : List WorkflowNode) (transitions : List WorkflowTransition) (context : Option Json)

/-- The completion of a node advances to the join. -/
def CompletesInto (id join : String) : Prop :=
  ∃ node signal, IsNode nodes id node ∧ completionSignal node.kind = some signal ∧
    (decideAdvance cel nodes transitions context id signal).1 = .advance join none

/-- The edge that a node's completion takes leads to the join, directly or over merges and conditions. -/
def LeadsInto (id join : String) : Prop :=
  ∃ node signal t walk, IsNode nodes id node ∧ completionSignal node.kind = some signal ∧
    IsEdge transitions id signal t ∧ Walk cel nodes transitions context t.target walk join ∧ walk.Nodup ∧
    walk.length ≤ maxResolveDepth + 1

end

section
variable {cel : Cel} {nodes : List WorkflowNode} {transitions : List WorkflowTransition} {context : Option Json}
  {id join : String} {joinNode : WorkflowNode}

private theorem completionSignal_incoming {kind : NodeKind} {signal : SignalType}
    (h : completionSignal kind = some signal) : isJoinIncomingSignal signal = true := by
  cases kind <;> cases h <;> rfl

private theorem completesInto_iff (hjoin : IsNode nodes join joinNode) (hkind : joinNode.kind = .parallelJoin) :
    CompletesInto cel nodes transitions context id join ↔ LeadsInto cel nodes transitions context id join := by
  constructor
  · rintro ⟨node, signal, hnode, hsignal, hadvance⟩
    have hincoming := completionSignal_incoming hsignal
    obtain ⟨t, hedge⟩ := edge_of_decideAdvance hincoming (by rw [hadvance]; exact nofun)
    rw [decideAdvance_of_edge hincoming hedge] at hadvance
    have hresolved : (resolve cel nodes transitions context t.target).1 ≠ .error := by
      rw [hadvance]
      exact nofun
    obtain ⟨walk, last, outcome, fan, hwalk, hlands, hnodup, hlength⟩ := walk_of_resolve hresolved
    rw [resolve_of_walk hwalk hlands hnodup hlength] at hadvance
    obtain rfl : last = join := by
      cases hlands with
      | approval | waits => exact (AdvanceOutcome.advance.inj hadvance).1
      | split | forEach | finished => cases hadvance
    exact ⟨node, signal, t, walk, hnode, hsignal, hedge, hwalk, hnodup, hlength⟩
  · rintro ⟨node, signal, t, walk, hnode, hsignal, hedge, hwalk, hnodup, hlength⟩
    refine ⟨node, signal, hnode, hsignal, ?_⟩
    rw [decideAdvance_of_edge (completionSignal_incoming hsignal) hedge,
      resolve_of_walk hwalk (.waits hjoin (by rw [hkind]; rfl)) hnodup hlength]

/-- The branches of the splits of a published definition complete into their join; those of its for-eaches do
exactly if the edge of each template's own completion, found first, leads to the join. -/
theorem branches_join_iff (context : Option Json) (h : validateDefinition cel nodes transitions = .ok ()) :
    ((∀ split ∈ nodes, ∀ ids, split.parallelSplit = some ids → ∃ join joinNode, IsNode nodes join joinNode ∧
        joinNode.kind = .parallelJoin ∧ ∀ b ∈ ids, CompletesInto cel nodes transitions context b join) ∧
      ∀ f ∈ nodes, ∀ path template join cap, f.forEach = some (path, template, join, cap) →
        CompletesInto cel nodes transitions context template join) ↔
      ∀ f ∈ nodes, ∀ path template join cap, f.forEach = some (path, template, join, cap) →
        LeadsInto cel nodes transitions context template join := by
  have hforEach : ∀ f ∈ nodes, ∀ path template join cap, f.forEach = some (path, template, join, cap) →
      (CompletesInto cel nodes transitions context template join ↔
        LeadsInto cel nodes transitions context template join) := by
    intro f hf path template join cap hfor
    obtain ⟨joinNode, hjoin, hkind⟩ := forEach_join_of_valid h hf hfor
    exact completesInto_iff (findNode_eq_some_iff.1 hjoin) hkind
  constructor
  · rintro ⟨-, hjoins⟩ f hf path template join cap hfor
    exact (hforEach f hf path template join cap hfor).1 (hjoins f hf path template join cap hfor)
  · refine fun hleads => ⟨fun split hsplit ids hids => ?_, fun f hf path template join cap hfor =>
      (hforEach f hf path template join cap hfor).2 (hleads f hf path template join cap hfor)⟩
    let snapshot : DefinitionSnapshot := ⟨"", 0, nodes, transitions, 0⟩
    obtain ⟨-, join, joinNode, hjoin, hkind, hbranches⟩ := converges_of_valid (s := snapshot) h hsplit hids
    refine ⟨join, joinNode, findNode_eq_some_iff.1 hjoin, hkind, fun b hb => ?_⟩
    have htarget := hbranches b hb
    obtain ⟨node, signal, hnode, hsignal⟩ : ∃ node signal, findNode nodes b = some node ∧
        completionSignal node.kind = some signal := by
      simp only [DefinitionSnapshot.completionTarget, Option.bind_eq_bind, Option.bind_eq_some_iff] at htarget
      obtain ⟨node, hnode, signal, hsignal, -⟩ := htarget
      exact ⟨node, signal, hnode, hsignal⟩
    refine ⟨node, signal, findNode_eq_some_iff.1 hnode, hsignal, ?_⟩
    rw [decideAdvance_of_completionTarget (s := snapshot) hnode hsignal htarget hjoin hkind]

end

/-- A for-each `f` over the template `t` and the join `j`. -/
private def forEachJoin (transitions : List WorkflowTransition) : DefinitionSnapshot :=
  Sample.definition [Sample.node "f" (.forEach "context.items" "t" "j" none), Sample.approval "t",
    Sample.node "j" (.parallelJoin .waitAll)] (transitions ++ [Sample.approved "j" "end"])

/-- The template's approval leads straight to the join. -/
theorem branches_join_iff_direct :
    let definition := forEachJoin [⟨"t", "end", .completed⟩, Sample.approved "t" "j"]
    CompletesInto Sample.cel definition.nodes definition.transitions none "t" "j" := by
  intro definition
  have ht : IsNode definition.nodes "t" (Sample.approval "t") := findNode_eq_some_iff.1 rfl
  have hedge : IsEdge definition.transitions "t" .approved (Sample.approved "t" "j") :=
    findNextTransition_eq_some_iff.1 (by decide)
  refine ((@branches_join_iff Sample.cel definition.nodes definition.transitions none (by decide)).2 ?_).2 (Sample.node "f" (.forEach "context.items" "t" "j" none)) (by decide) _ _ _ _ rfl
  intro f hf path template join cap hfor
  obtain ⟨rfl, rfl⟩ : template = "t" ∧ join = "j" := by
    have hall : ∀ f ∈ definition.nodes, ∀ x ∈ f.forEach, x.2.1 = "t" ∧ x.2.2.1 = "j" := by decide
    exact hall f hf _ hfor
  exact ⟨_, _, _, ["j"], ht, rfl, hedge, .here, by simp, by decide⟩

/-- The gate takes the edge on COMPLETED for the way of an approval to the join; the approval goes to the end. -/
theorem template_misses_join :
    let definition := forEachJoin [Sample.approved "t" "end", ⟨"t", "j", .completed⟩]
    validateDefinition Sample.cel definition.nodes definition.transitions = .ok () ∧
      (∃ f ∈ definition.nodes, f.forEach = some ("context.items", "t", "j", none)) ∧
      findNode definition.nodes "t" = some (Sample.approval "t") ∧
      completionSignal (Sample.approval "t").kind = some .approved ∧
      (decideAdvance Sample.cel definition.nodes definition.transitions none "t" .approved).1 =
        .complete .approved := by
  intro definition
  exact ⟨by decide, by decide, by decide, rfl, rfl⟩

end Fusions.Hetuflow
