import Fusions.Hetuflow.Contract.Lint
import Fusions.Hetuflow.Contract.Routing

/-! What the topology lint reports of a published definition, against the runs of the runtime: it follows neither
the entry that `decide_start` takes nor the fan-out of a for-each. -/
namespace Fusions.Hetuflow
open Library

section
variable (cel : Cel) (nodes : List WorkflowNode) (transitions : List WorkflowTransition)

/-- A decision at a node, in some context: on a signal, or when its event wait expires. -/
inductive Decides (id : String) : AdvanceOutcome → ResolveTrace → Prop where
  | signal (context : Option Json) (signal : SignalType) :
      Decides id (decideAdvance cel nodes transitions context id signal).1
        (decideAdvance cel nodes transitions context id signal).2
  | timeout (context : Option Json) :
      Decides id (decideEventWaitTimeout cel nodes transitions context id).1
        (decideEventWaitTimeout cel nodes transitions context id).2

/-- The nodes where an activity of a run is scheduled, from the entry on: what an outcome advances or is reworked
to, the branches that it fans out, and the join of a for-each without items. -/
inductive Stands : String → Prop where
  | entry {id : String} {role : Option String} : decideStart nodes = some (id, role) → Stands id
  | advance {id target : String} {role : Option String} {trace : ResolveTrace} : Stands id →
      Decides cel nodes transitions id (.advance target role) trace → Stands target
  | rework {id target : String} {role : Option String} {trace : ResolveTrace} : Stands id →
      Decides cel nodes transitions id (.rework target role) trace → Stands target
  | branch {id : String} {targets : List ParallelTarget} {trace : ResolveTrace} {t : ParallelTarget} : Stands id →
      Decides cel nodes transitions id (.advanceMulti targets) trace → t ∈ targets → Stands t.nodeId
  | emptied {id : String} {trace : ResolveTrace} {fan : ForEachFanOut} : Stands id →
      Decides cel nodes transitions id (.advanceMulti []) trace → trace.forEachFanOut = some fan →
      Stands fan.joinTarget

/-- Where a decision at a node starts to resolve: along an edge, or at the target of an expired event wait. -/
inductive Leaves (id : String) : String → Prop where
  | edge {signal : SignalType} {t : WorkflowTransition} : findNextTransition transitions id signal = some t →
      Leaves id t.target
  | timeout {node : WorkflowNode} {eventType target : String} {seconds : Option Int} : findNode nodes id = some node →
      node.eventWait = some (eventType, seconds, some target) → Leaves id target

/-- The nodes of a run: those where it stands, and those on the way from one to where its decisions land. -/
inductive Visits : String → Prop where
  | stands {id : String} : Stands cel nodes transitions id → Visits id
  | passes {id target last v : String} {walk : List String} {context : Option Json} : Stands cel nodes transitions id →
      Leaves nodes transitions id target → Walk cel nodes transitions context target walk last → v ∈ walk → Visits v

/-- Kinds that route a decision on instead of waiting for one. -/
def NodeKind.routes : NodeKind → Bool
  | .merge | .condition | .parallelSplit | .forEach => true
  | _ => false

/-- An outcome out of a node: of a decision while a run stands there, or of the node's own routing. -/
inductive OutcomeOf (n : WorkflowNode) : AdvanceOutcome → Prop where
  | decided {outcome : AdvanceOutcome} {trace : ResolveTrace} : Stands cel nodes transitions n.id →
      Decides cel nodes transitions n.id outcome trace → OutcomeOf n outcome
  | routed (context : Option Json) : n.kind.routes = true →
      OutcomeOf n (resolve cel nodes transitions context n.id).1

/-- No finding of the lint is wrong about the runs. -/
structure NoFalseAlarm : Prop where
  unreachable : ∀ n ∈ nodes, Reports nodes transitions "unreachable_node" n.id → ¬ Visits cel nodes transitions n.id
  deadlock : ∀ n ∈ nodes, Reports nodes transitions "deadlock_node" n.id →
    ∀ outcome, OutcomeOf cel nodes transitions n outcome → outcome = .error

/-- Reachable from a start node in the lint's graph. -/
def LintReaches (id : String) : Prop :=
  ∃ start ∈ nodes, start.kind = .start ∧ (staticGraph nodes transitions).Reaches start.id id

/-- The lint's graph holds the moves that it does not follow: the entry is reachable in it, and the template of
every for-each that a run fans out, or without items its join; and a for-each that no edge leaves never has a list
of items within its cap. -/
structure FollowsLint : Prop where
  entry : ∀ id role, decideStart nodes = some (id, role) → LintReaches nodes transitions id
  fanOut : ∀ id targets trace fan, Stands cel nodes transitions id →
    Decides cel nodes transitions id (.advanceMulti targets) trace → trace.forEachFanOut = some fan →
    (∀ t ∈ targets, LintReaches nodes transitions t.nodeId) ∧
      (targets = [] → LintReaches nodes transitions fan.joinTarget)
  items : ∀ n ∈ nodes, ∀ path template join cap, n.forEach = some (path, template, join, cap) →
    (∀ t ∈ transitions, t.source ≠ n.id) →
    ∀ context items, cel.evalArray path context = .ok items → ∃ c ∈ cap, c.toNat < items.length

end

section
variable {cel : Cel} {nodes : List WorkflowNode} {transitions : List WorkflowTransition} {context : Option Json}
  {id v w last target : String} {walk : List String} {outcome : AdvanceOutcome} {trace : ResolveTrace}
  {fan : Option ForEachFanOut} {n node : WorkflowNode}

/-- A decision fails, completes the instance outright, or resolves a target that leaves the node; of a hand-back
the target is advanced to. -/
theorem Decides.cases (h : Decides cel nodes transitions id outcome trace) :
    outcome = .error ∨ (∃ result, outcome = .complete result) ∨
      ∃ target context, Leaves nodes transitions id target ∧
        (resolve cel nodes transitions context target = (outcome, trace) ∨
          ∃ t role, outcome = .rework t role ∧
            resolve cel nodes transitions context target = (.advance t role, trace)) := by
  cases h with
  | signal context signal =>
    unfold decideAdvance
    cases signal with
    | rejected => exact .inr (.inl ⟨_, rfl⟩)
    | resubmitted | claimed | reassigned => exact .inl rfl
    | approved | eventReceived | completed =>
      dsimp only
      split
      · next t hedge => exact .inr (.inr ⟨t.target, context, .edge hedge, .inl rfl⟩)
      · exact .inl rfl
    | returned =>
      dsimp only
      split
      · next t hedge =>
        split
        · next target role trace hresolve =>
          exact .inr (.inr ⟨t.target, context, .edge hedge, .inr ⟨target, role, rfl, hresolve⟩⟩)
        · exact .inl rfl
      · exact .inr (.inl ⟨_, rfl⟩)
  | timeout context =>
    unfold decideEventWaitTimeout
    split
    · exact .inl rfl
    · next node hfind =>
      split
      · next hwait => exact .inr (.inr ⟨_, context, .timeout hfind hwait, .inl rfl⟩)
      · exact .inl rfl

/-- What is resolved without an error is where a walk lands. -/
theorem landing_of_resolve (h : resolve cel nodes transitions context target = (outcome, trace))
    (hne : outcome ≠ .error) : ∃ walk last, Walk cel nodes transitions context target walk last ∧
      LandsOn cel nodes context last outcome trace.forEachFanOut := by
  have hresolved : (resolve cel nodes transitions context target).1 ≠ .error := by rwa [h]
  obtain ⟨walk, last, o, fan, hwalk, hlands, hnodup, hlength⟩ := walk_of_resolve hresolved
  obtain ⟨rfl, rfl⟩ := Prod.mk.inj (h.symm.trans (resolve_of_walk hwalk hlands hnodup hlength))
  exact ⟨walk, last, hwalk, hlands⟩

/-- A node of a kind that an activity is scheduled on. -/
def Schedulable (nodes : List WorkflowNode) (id : String) : Prop :=
  ∃ node, IsNode nodes id node ∧ (node.kind = .approval ∨ node.kind.waits = true)

theorem Schedulable.kind_ne (h : Schedulable nodes id) (hnode : findNode nodes id = some node) :
    node.kind ≠ .start ∧ node.kind ≠ .forEach := by
  obtain ⟨node', hnode', hkind⟩ := h
  obtain rfl := (findNode_eq_some_iff.1 hnode).unique hnode'
  rcases hkind with hkind | hkind
  · simp [hkind]
  · cases hkind' : node'.kind <;> simp [hkind', NodeKind.waits] at hkind ⊢

theorem LandsOn.schedulable {role : Option String} (h : LandsOn cel nodes context last (.advance target role) fan) :
    target = last ∧ Schedulable nodes last := by
  cases h with
  | approval hnode hkind => exact ⟨rfl, _, hnode, .inl hkind⟩
  | waits hnode hwaits => exact ⟨rfl, _, hnode, .inr hwaits⟩

theorem IsSplitTarget.schedulable {t : ParallelTarget} (h : IsSplitTarget nodes id t) :
    t.nodeId = id ∧ Schedulable nodes id := by
  obtain ⟨node, activityType, hnode, htype, rfl⟩ := h
  refine ⟨rfl, node, hnode, ?_⟩
  cases hkind : node.kind <;> simp [hkind, splitBranchType, NodeKind.waits] at htype ⊢

theorem schedulable_of_mem {ids : List String} {targets : List ParallelTarget} {t : ParallelTarget}
    (h : List.Forall₂ (IsSplitTarget nodes) ids targets) (ht : t ∈ targets) :
    Schedulable nodes t.nodeId ∧ t.nodeId ∈ ids := by
  induction h with
  | nil => cases ht
  | cons htarget _ ih =>
    rcases List.mem_cons.1 ht with rfl | ht
    · obtain ⟨heq, hschedulable⟩ := htarget.schedulable
      rw [heq]
      exact ⟨hschedulable, List.mem_cons_self ..⟩
    · exact (ih ht).imp_right (List.mem_cons_of_mem _)

/-- The branches of a fan-out: those of a split, which its node embeds, or of a for-each, all at its template. -/
theorem LandsOn.branch {targets : List ParallelTarget} {t : ParallelTarget}
    (h : LandsOn cel nodes context last (.advanceMulti targets) fan) (ht : t ∈ targets) :
    Schedulable nodes t.nodeId ∧
      (fan.isSome = true ∨ ∃ node ids, IsNode nodes last node ∧ node.parallelSplit = some ids ∧ t.nodeId ∈ ids) := by
  cases h with
  | split hnode hsplit htargets =>
    obtain ⟨hschedulable, hid⟩ := schedulable_of_mem htargets ht
    exact ⟨hschedulable, .inr ⟨_, _, hnode, hsplit, hid⟩⟩
  | @forEach path template join node branch cap items activityType hnode hforEach hitems hcap hbranch htype =>
    obtain ⟨i, hi, rfl⟩ := List.mem_mapIdx.1 ht
    refine ⟨⟨branch, hbranch, ?_⟩, .inl rfl⟩
    cases hkind : branch.kind <;> simp [hkind, forEachBranchType, NodeKind.waits] at htype ⊢

/-- What a decision advances to or hands back to is the end of a walk from a target that leaves the node. -/
theorem Decides.advances {t : String} {role : Option String} (h : Decides cel nodes transitions id outcome trace)
    (houtcome : outcome = .advance t role ∨ outcome = .rework t role) :
    ∃ target context walk, Leaves nodes transitions id target ∧ Walk cel nodes transitions context target walk t ∧
      Schedulable nodes t := by
  rcases h.cases with rfl | ⟨result, rfl⟩ | ⟨target, context, hleaves, hresolve⟩
  · rcases houtcome with houtcome | houtcome <;> cases houtcome
  · rcases houtcome with houtcome | houtcome <;> cases houtcome
  · have hadvance : resolve cel nodes transitions context target = (.advance t role, trace) := by
      rcases hresolve with hresolve | ⟨t', role', hrework, hresolve⟩
      · rcases houtcome with rfl | rfl
        · exact hresolve
        · obtain ⟨walk, last, -, hlands⟩ := landing_of_resolve hresolve nofun
          cases hlands
      · rcases houtcome with rfl | rfl <;> cases hrework
        exact hresolve
    obtain ⟨walk, last, hwalk, hlands⟩ := landing_of_resolve hadvance nofun
    obtain ⟨rfl, hschedulable⟩ := hlands.schedulable
    exact ⟨target, context, walk, hleaves, hwalk, hschedulable⟩

/-- A fan-out is where a walk from a target that leaves the node lands. -/
theorem Decides.fansOut {targets : List ParallelTarget}
    (h : Decides cel nodes transitions id (.advanceMulti targets) trace) :
    ∃ target context walk last, Leaves nodes transitions id target ∧
      Walk cel nodes transitions context target walk last ∧
      LandsOn cel nodes context last (.advanceMulti targets) trace.forEachFanOut := by
  rcases h.cases with houtcome | ⟨result, houtcome⟩ | ⟨target, context, hleaves, hresolve | ⟨t, role, houtcome, -⟩⟩
  · cases houtcome
  · cases houtcome
  · obtain ⟨walk, last, hwalk, hlands⟩ := landing_of_resolve hresolve nofun
    exact ⟨target, context, walk, last, hleaves, hwalk, hlands⟩
  · cases houtcome

/-! The moves of a run that the lint follows. -/

theorem id_of_findNode (h : findNode nodes id = some node) : node.id = id := by
  simpa using List.find?_some h

theorem knownId_of_isNode (h : IsNode nodes id node) : knownId nodes id = true := by
  have hfind := findNode_eq_some_iff.2 h
  exact knownId_iff.2 ⟨node, List.mem_of_find?_eq_some hfind, id_of_findNode hfind⟩

theorem LintReaches.step (h : LintReaches nodes transitions v) (hnode : findNode nodes v = some node)
    (hw : w ∈ staticOutTargets node transitions) (hknown : knownId nodes w = true) : LintReaches nodes transitions w := by
  obtain ⟨start, hstart, hkind, hreach⟩ := h
  exact ⟨start, hstart, hkind, hreach.tail (staticGraph_edge.2 ⟨node, hnode, hw, hknown⟩)⟩

theorem Hop.static (h : Hop cel nodes transitions context v w) :
    ∃ node, findNode nodes v = some node ∧ w ∈ staticOutTargets node transitions := by
  cases h with
  | @merge node t hnode hkind hedge =>
    have hfind := findNode_eq_some_iff.2 hnode
    obtain ⟨pre, post, hsplit, ⟨hsource, -⟩, -⟩ := hedge
    refine ⟨node, hfind, mem_staticOutTargets.2 (.inl ⟨t, by rw [hsplit]; simp, ?_, rfl⟩)⟩
    rw [hsource, id_of_findNode hfind]
  | @condition default target node branches hnode hcondition htakes =>
    refine ⟨node, findNode_eq_some_iff.2 hnode, mem_staticOutTargets.2 (.inr (.inr (.inl ⟨_, _, hcondition, ?_⟩)))⟩
    cases htakes with
    | @branch pre post b hsplit => exact .inr ⟨b, by rw [hsplit]; simp, rfl⟩
    | default => exact .inl rfl

theorem Leaves.static (h : Leaves nodes transitions v w) (hnode : findNode nodes v = some node) :
    w ∈ staticOutTargets node transitions := by
  cases h with
  | edge hedge =>
    have hsource := List.find?_some hedge
    simp only [Bool.and_eq_true, beq_iff_eq] at hsource
    refine mem_staticOutTargets.2 (.inl ⟨_, List.mem_of_find?_eq_some hedge, ?_, rfl⟩)
    rw [hsource.1, id_of_findNode hnode]
  | timeout hfind hwait =>
    obtain rfl := Option.some.inj (hfind.symm.trans hnode)
    exact mem_staticOutTargets.2 (.inr (.inr (.inr ⟨_, _, hwait⟩)))

/-- Along a walk the lint follows, up to a target that does not exist. -/
theorem Walk.lintReaches (h : Walk cel nodes transitions context id walk last)
    (hid : knownId nodes id = true → LintReaches nodes transitions id) :
    ∀ u ∈ walk, knownId nodes u = true → LintReaches nodes transitions u := by
  induction h with
  | here =>
    intro u hu
    obtain rfl := List.mem_singleton.1 hu
    exact hid
  | @hop id next last walk hhop _ ih =>
    obtain ⟨node, hfind, hstatic⟩ := hhop.static
    have hhere := hid (knownId_of_isNode (findNode_eq_some_iff.1 hfind))
    intro u hu
    rcases List.mem_cons.1 hu with rfl | hu
    · exact fun _ => hhere
    · exact ih (hhere.step hfind hstatic) u hu

theorem Walk.end_mem (h : Walk cel nodes transitions context id walk last) : last ∈ walk := by
  induction h with
  | here => exact List.mem_singleton_self _
  | hop _ _ ih => exact List.mem_cons_of_mem _ ih

/-- From a node that the lint reaches it follows every decision up to where it lands. -/
theorem Leaves.lintReaches (h : Leaves nodes transitions id target) (hid : LintReaches nodes transitions id)
    (hschedulable : Schedulable nodes id) (hwalk : Walk cel nodes transitions context target walk last) :
    ∀ u ∈ walk, knownId nodes u = true → LintReaches nodes transitions u := by
  obtain ⟨node, hnode, -⟩ := hschedulable
  have hfind := findNode_eq_some_iff.2 hnode
  exact hwalk.lintReaches fun hknown => hid.step hfind (h.static hfind) hknown

theorem stands_schedulable (hvalid : validateDefinition cel nodes transitions = .ok ())
    (h : Stands cel nodes transitions id) : Schedulable nodes id := by
  cases h with
  | entry hentry =>
    obtain ⟨node, hfind, heq⟩ := Option.map_eq_some_iff.1 hentry
    obtain ⟨rfl, -⟩ := Prod.mk.inj heq
    refine ⟨node, findNode_eq_some_iff.1 ?_, .inl (by simpa using List.find?_some hfind)⟩
    exact (published_of_valid hvalid).findNode (List.mem_of_find?_eq_some hfind)
  | advance _ hdecides =>
    obtain ⟨-, -, -, -, -, hschedulable⟩ := hdecides.advances (.inl rfl)
    exact hschedulable
  | rework _ hdecides =>
    obtain ⟨-, -, -, -, -, hschedulable⟩ := hdecides.advances (.inr rfl)
    exact hschedulable
  | branch _ hdecides ht =>
    obtain ⟨_, _, _, _, _, _, hlands⟩ := hdecides.fansOut
    exact (hlands.branch ht).1
  | emptied _ hdecides hfan =>
    obtain ⟨_, _, _, _, _, _, hlands⟩ := hdecides.fansOut
    rw [hfan] at hlands
    generalize hnone : AdvanceOutcome.advanceMulti [] = o at hlands
    cases hlands with
    | forEach hnode hforEach =>
      have hmem := List.mem_of_find?_eq_some (findNode_eq_some_iff.2 hnode)
      obtain ⟨join, hjoin, hkind⟩ := forEach_join_of_valid hvalid hmem hforEach
      exact ⟨join, findNode_eq_some_iff.1 hjoin, .inr (by rw [hkind]; rfl)⟩

/-- Where the lint's graph holds the moves it does not follow, it reaches every node that a run stands at. -/
theorem FollowsLint.stands (h : FollowsLint cel nodes transitions)
    (hvalid : validateDefinition cel nodes transitions = .ok ()) (hstands : Stands cel nodes transitions id) :
    LintReaches nodes transitions id := by
  induction hstands with
  | entry hentry => exact h.entry _ _ hentry
  | advance hfrom hdecides ih =>
    obtain ⟨target, context, walk, hleaves, hwalk, node, hnode, -⟩ := hdecides.advances (.inl rfl)
    exact hleaves.lintReaches ih (stands_schedulable hvalid hfrom) hwalk _ hwalk.end_mem (knownId_of_isNode hnode)
  | rework hfrom hdecides ih =>
    obtain ⟨target, context, walk, hleaves, hwalk, node, hnode, -⟩ := hdecides.advances (.inr rfl)
    exact hleaves.lintReaches ih (stands_schedulable hvalid hfrom) hwalk _ hwalk.end_mem (knownId_of_isNode hnode)
  | branch hfrom hdecides ht ih =>
    obtain ⟨target, context, walk, last, hleaves, hwalk, hlands⟩ := hdecides.fansOut
    obtain ⟨hschedulable, hfan | ⟨node, ids, hnode, hsplit, hid⟩⟩ := hlands.branch ht
    · obtain ⟨fan, hfan⟩ := Option.isSome_iff_exists.1 hfan
      exact (h.fanOut _ _ _ _ hfrom hdecides hfan).1 _ ht
    · have hlast := hleaves.lintReaches ih (stands_schedulable hvalid hfrom) hwalk _ hwalk.end_mem
        (knownId_of_isNode hnode)
      obtain ⟨branch, hbranch, -⟩ := hschedulable
      exact hlast.step (findNode_eq_some_iff.2 hnode) (mem_staticOutTargets.2 (.inr (.inl ⟨ids, hsplit, hid⟩)))
        (knownId_of_isNode hbranch)
  | emptied hfrom hdecides hfan => exact (h.fanOut _ _ _ _ hfrom hdecides hfan).2 rfl

theorem FollowsLint.visits (h : FollowsLint cel nodes transitions)
    (hvalid : validateDefinition cel nodes transitions = .ok ()) (hvisits : Visits cel nodes transitions v)
    (hknown : knownId nodes v = true) : LintReaches nodes transitions v := by
  cases hvisits with
  | stands hstands => exact h.stands hvalid hstands
  | passes hstands hleaves hwalk hv =>
    exact hleaves.lintReaches (h.stands hvalid hstands) (stands_schedulable hvalid hstands) hwalk v hv hknown

/-! What is reported of a published definition. -/

theorem reports_unreachable_iff (hvalid : validateDefinition cel nodes transitions = .ok ()) (hn : n ∈ nodes) :
    Reports nodes transitions "unreachable_node" n.id ↔ n.kind ≠ .start ∧ ¬ LintReaches nodes transitions n.id := by
  obtain ⟨start, hstart⟩ := start_of_valid hvalid
  have hids := (published_of_valid hvalid).ids_nodup
  have hmem : ∀ s, (s ∈ nodes ∧ s.kind = .start) ↔ s = start := by
    intro s
    have hfilter : s ∈ (nodes.filter fun n => n.kind == .start) ↔ s ∈ nodes ∧ (s.kind == .start) = true :=
      List.mem_filter
    rwa [hstart, List.mem_singleton, beq_iff_eq, iff_comm] at hfilter
  have hreaches : ∀ id, LintReaches nodes transitions id ↔ (staticGraph nodes transitions).Reaches start.id id := by
    intro id
    constructor
    · rintro ⟨s, hs, hkind, hreach⟩
      rwa [(hmem s).1 ⟨hs, hkind⟩] at hreach
    · intro hreach
      obtain ⟨hs, hkind⟩ := (hmem start).2 rfl
      exact ⟨start, hs, hkind, hreach⟩
  have hfinding : ∀ f, (f ∈ lintDefinition nodes transitions ∧ f.code = "unreachable_node") ↔
      ∃ m ∈ nodes, (m.kind ≠ .start ∧ ¬ LintReaches nodes transitions m.id) ∧ unreachableNode m = f := by
    intro f
    have hfilter : f ∈ ((lintDefinition nodes transitions).filter fun f => f.code == "unreachable_node") ↔
        f ∈ lintDefinition nodes transitions ∧ (f.code == "unreachable_node") = true := List.mem_filter
    rw [lintDefinition_unreachable, unreachableNodes_eq hstart, beq_iff_eq] at hfilter
    rw [← hfilter]
    simp [hreaches, and_assoc]
  constructor
  · rintro ⟨f, hf, hcode, hid⟩
    obtain ⟨m, hm, hreport, rfl⟩ := (hfinding f).1 ⟨hf, hcode⟩
    have hsame := findNode_of_nodup hids hm
    rw [Option.some.inj hid, findNode_of_nodup hids hn] at hsame
    rwa [Option.some.inj hsame]
  · intro hreport
    obtain ⟨hf, hcode⟩ := (hfinding _).2 ⟨n, hn, hreport, rfl⟩
    exact ⟨_, hf, hcode, rfl⟩

theorem out_of_edge {signal : SignalType} {t : WorkflowTransition} (h : IsEdge transitions n.id signal t) :
    t.target ∈ staticOutTargets n transitions := by
  obtain ⟨pre, post, hsplit, ⟨hsource, -⟩, -⟩ := h
  exact mem_staticOutTargets.2 (.inl ⟨t, by rw [hsplit]; simp, hsource, rfl⟩)

theorem out_of_condition (hkind : n.kind = .condition) : ∃ w, w ∈ staticOutTargets n transitions := by
  obtain ⟨⟨default, branches⟩, hcondition⟩ := Option.isSome_iff_exists.1 (WorkflowNode.isSome_condition_iff.2 hkind)
  exact ⟨default, mem_staticOutTargets.2 (.inr (.inr (.inl ⟨_, _, hcondition, .inl rfl⟩)))⟩

/-- A published split has a branch. -/
theorem out_of_split (h : validateNode cel nodes transitions n = .ok ()) (hkind : n.kind = .parallelSplit) :
    ∃ w, w ∈ staticOutTargets n transitions := by
  obtain ⟨ids, hids⟩ := Option.isSome_iff_exists.1 (WorkflowNode.isSome_parallelSplit_iff.2 hkind)
  obtain ⟨_, -, h⟩ := bind_ok h
  simp only [hkind, validateParallelSplit, hids] at h
  obtain ⟨_, htwo, -⟩ := bind_ok h
  cases ids with
  | nil => simpa using reject_ok htwo
  | cons b bs => exact ⟨b, mem_staticOutTargets.2 (.inr (.inl ⟨_, hids, List.mem_cons_self ..⟩))⟩

/-- A published event wait has a timeout target, or an edge for its event. -/
theorem out_of_eventWait (h : validateNode cel nodes transitions n = .ok ()) (hkind : n.kind = .eventWait) :
    ∃ w, w ∈ staticOutTargets n transitions := by
  obtain ⟨⟨eventType, seconds, expired⟩, hwait⟩ :=
    Option.isSome_iff_exists.1 (WorkflowNode.isSome_eventWait_iff.2 hkind)
  obtain ⟨_, -, h⟩ := bind_ok h
  simp only [hkind, validateEventWait, hwait] at h
  obtain ⟨_, -, h⟩ := bind_ok h
  obtain ⟨_, -, h⟩ := bind_ok h
  cases expired with
  | none =>
    have hreceived : hasOutgoing transitions n.id .eventReceived = true := by simpa using reject_ok h
    obtain ⟨t, hedge⟩ := edge_of_hasOutgoing hreceived
    exact ⟨t.target, out_of_edge hedge⟩
  | some target => exact ⟨target, mem_staticOutTargets.2 (.inr (.inr (.inr ⟨_, _, hwait⟩)))⟩

/-- Of the published nodes the lint takes only for-eaches for deadlocks. -/
theorem kind_of_isDeadlock (h : validateNode cel nodes transitions n = .ok ()) (hdead : isDeadlock transitions n = true) :
    n.kind = .forEach := by
  simp only [isDeadlock, Bool.and_eq_true, bne_iff_ne, List.isEmpty_iff] at hdead
  obtain ⟨⟨hend, hstart⟩, hnil⟩ := hdead
  have hnone : ¬ ∃ w, w ∈ staticOutTargets n transitions := by simp [hnil]
  have hedge : ∀ signal, n.kind.advanceSignal = some signal → n.kind ≠ .eventWait → False := by
    intro signal hsignal hwait
    obtain ⟨t, hedge⟩ := edge_of_valid h hsignal (absurd · hwait)
    exact hnone ⟨t.target, out_of_edge hedge⟩
  cases hkind : n.kind
  case start => exact absurd hkind hstart
  case endNode => exact absurd hkind hend
  case forEach => rfl
  case approval | notification | parallelJoin | assignment | merge | subWorkflow =>
    rw [hkind] at hedge
    exact (hedge _ rfl (by decide)).elim
  case condition => exact absurd (out_of_condition hkind) hnone
  case parallel | timer =>
    obtain ⟨_, -, h⟩ := bind_ok h
    rw [hkind] at h
    cases h
  case parallelSplit => exact absurd (out_of_split h hkind) hnone
  case eventWait => exact absurd (out_of_eventWait h hkind) hnone

/-- A published for-each that no edge leaves is taken for a deadlock. -/
theorem reports_forEach_iff (hvalid : validateDefinition cel nodes transitions = .ok ()) (hn : n ∈ nodes) :
    Reports nodes transitions "deadlock_node" n.id ↔ n.kind = .forEach ∧ ∀ t ∈ transitions, t.source ≠ n.id := by
  have hpublished := published_of_valid hvalid
  rw [reports_deadlock_iff]
  constructor
  · rintro ⟨m, hm, hid, hdead⟩
    have hsame := hpublished.findNode hm
    rw [hid, hpublished.findNode hn] at hsame
    obtain rfl := Option.some.inj hsame
    refine ⟨kind_of_isDeadlock (hpublished.node n hn) hdead, ?_⟩
    simp only [isDeadlock, Bool.and_eq_true, List.isEmpty_iff] at hdead
    exact staticOutTargets_eq_nil hdead.2
  · rintro ⟨hkind, hedges⟩
    have hnil : staticOutTargets n transitions = [] := by
      have hout : (transitions.filter fun t => t.source == n.id) = [] :=
        List.filter_eq_nil_iff.2 fun t ht => by simpa using hedges t ht
      simp [staticOutTargets, hkind, hout]
    exact ⟨n, hn, rfl, by simp [isDeadlock, hkind, hnil]⟩

theorem not_hop_of_forEach {next : String} (hnode : IsNode nodes id n) (hkind : n.kind = .forEach) :
    ¬ Hop cel nodes transitions context id next := by
  intro hhop
  cases hhop with
  | merge hnode' hkind' =>
    rw [← hnode.unique hnode', hkind'] at hkind
    cases hkind
  | condition hnode' hcondition =>
    rw [← hnode.unique hnode', kind_of_condition hcondition] at hkind
    cases hkind

/-- What lands on a for-each has its items within the cap. -/
theorem items_of_landsOn {path template join : String} {cap : Option Int} {outcome : AdvanceOutcome}
    {fan : Option ForEachFanOut} (hnode : IsNode nodes id n) (hforEach : n.forEach = some (path, template, join, cap))
    (h : LandsOn cel nodes context id outcome fan) :
    ∃ items, cel.evalArray path context = .ok items ∧ ∀ c ∈ cap, items.length ≤ c.toNat := by
  have hkind := kind_of_forEach hforEach
  cases h with
  | approval hnode' hkind' | finished hnode' hkind' =>
    rw [← hnode.unique hnode', hkind'] at hkind
    cases hkind
  | waits hnode' hwaits =>
    rw [hnode.unique hnode', hkind] at hwaits
    cases hwaits
  | split hnode' hsplit =>
    rw [← hnode.unique hnode', kind_of_parallelSplit hsplit] at hkind
    cases hkind
  | forEach hnode' hforEach' hitems hcap =>
    rw [hnode.unique hnode', hforEach] at hforEach'
    cases hforEach'
    exact ⟨_, hitems, hcap⟩

/-- A published for-each routes a decision on exactly in the contexts that give it a list within its cap. -/
theorem resolve_forEach_ne_error {path template join : String} {cap : Option Int}
    (hvalid : validateDefinition cel nodes transitions = .ok ()) (hn : n ∈ nodes)
    (hforEach : n.forEach = some (path, template, join, cap)) :
    (resolve cel nodes transitions context n.id).1 ≠ .error ↔
      ∃ items, cel.evalArray path context = .ok items ∧ ∀ c ∈ cap, items.length ≤ c.toNat := by
  have hpublished := published_of_valid hvalid
  have hnode := findNode_eq_some_iff.1 (hpublished.findNode hn)
  have hkind := kind_of_forEach hforEach
  constructor
  · intro hne
    obtain ⟨walk, last, outcome, fan, hwalk, hlands, -⟩ := walk_of_resolve hne
    cases hwalk with
    | here => exact items_of_landsOn hnode hforEach hlands
    | hop hhop => exact absurd hhop (not_hop_of_forEach hnode hkind)
  · rintro ⟨items, hitems, hcap⟩
    obtain ⟨_, -, hnodeValid⟩ := bind_ok (hpublished.node n hn)
    rw [hkind] at hnodeValid
    obtain ⟨⟨branch, activityType, hbranch, htype⟩, -⟩ := forEach_of_valid hnodeValid hforEach
    rw [resolve_of_walk .here (.forEach hnode hforEach hitems hcap (findNode_eq_some_iff.1 hbranch) htype) (by simp)
      (by simp [maxResolveDepth])]
    exact nofun

theorem NoFalseAlarm.stands (h : NoFalseAlarm cel nodes transitions)
    (hvalid : validateDefinition cel nodes transitions = .ok ()) (hstands : Stands cel nodes transitions id) :
    LintReaches nodes transitions id := by
  have hschedulable := stands_schedulable hvalid hstands
  have ⟨node, hnode, _⟩ := hschedulable
  have hfind := findNode_eq_some_iff.2 hnode
  have hmem := List.mem_of_find?_eq_some hfind
  obtain rfl := id_of_findNode hfind
  by_contra hnot
  refine h.unreachable node hmem ?_ (.stands hstands)
  exact (reports_unreachable_iff hvalid hmem).2 ⟨(hschedulable.kind_ne hfind).1, hnot⟩

/-- The lint raises no false alarm on a published definition exactly when its graph holds the moves that it does
not follow. -/
theorem noFalseAlarm_iff (hvalid : validateDefinition cel nodes transitions = .ok ()) :
    NoFalseAlarm cel nodes transitions ↔ FollowsLint cel nodes transitions := by
  constructor
  · intro h
    refine ⟨fun id role hentry => h.stands hvalid (.entry hentry), ?_, ?_⟩
    · intro id targets trace fan hstands hdecides hfan
      refine ⟨fun t ht => h.stands hvalid (.branch hstands hdecides ht), ?_⟩
      rintro rfl
      exact h.stands hvalid (.emptied hstands hdecides hfan)
    · intro n hn path template join cap hforEach hedges context items hitems
      have hreported := (reports_forEach_iff hvalid hn).2 ⟨kind_of_forEach hforEach, hedges⟩
      have herror := h.deadlock n hn hreported _ (.routed context (by rw [kind_of_forEach hforEach]; rfl))
      by_contra hnone
      refine (resolve_forEach_ne_error hvalid hn hforEach).2 ⟨items, hitems, fun c hc => ?_⟩ herror
      exact Nat.le_of_not_lt fun hover => hnone ⟨c, hc, hover⟩
  · intro h
    constructor
    · intro n hn hreported hvisits
      refine ((reports_unreachable_iff hvalid hn).1 hreported).2 (h.visits hvalid hvisits ?_)
      exact knownId_iff.2 ⟨n, hn, rfl⟩
    · intro n hn hreported outcome hout
      obtain ⟨hkind, hedges⟩ := (reports_forEach_iff hvalid hn).1 hreported
      obtain ⟨⟨path, template, join, cap⟩, hforEach⟩ :=
        Option.isSome_iff_exists.1 (WorkflowNode.isSome_forEach_iff.2 hkind)
      cases hout with
      | decided hstands =>
        have hfind := (published_of_valid hvalid).findNode hn
        exact absurd hkind ((stands_schedulable hvalid hstands).kind_ne hfind).2
      | routed context =>
        by_contra hne
        obtain ⟨items, hitems, hwithin⟩ := (resolve_forEach_ne_error hvalid hn hforEach).1 hne
        obtain ⟨c, hc, hover⟩ := h.items n hn path template join cap hforEach hedges context items hitems
        exact absurd (hwithin c hc) (by omega)

end

/-- The lint follows a definition with an edge from its start to its first approval and without a for-each. -/
theorem noFalseAlarm_linear :
    let definition := Sample.definition [Sample.approval "a"] [⟨"start", "a", .resubmitted⟩, Sample.approved "a" "end"]
    NoFalseAlarm Sample.cel definition.nodes definition.transitions := by
  intro definition
  have hnone : ∀ n ∈ definition.nodes, n.forEach = none := by decide
  refine (@noFalseAlarm_iff Sample.cel definition.nodes definition.transitions (by decide)).2 ⟨?_, ?_, ?_⟩
  · intro id role hentry
    obtain ⟨rfl, -⟩ := Prod.mk.inj (Option.some.inj hentry)
    refine ⟨Sample.node "start" .start, by decide, rfl, .single ?_⟩
    exact staticGraph_edge.2 ⟨Sample.node "start" .start, rfl, by decide, by decide⟩
  · intro id targets trace fan _ hdecides hfan
    obtain ⟨_, _, _, _, _, _, hlands⟩ := hdecides.fansOut
    rw [hfan] at hlands
    cases hlands with
    | forEach hnode hforEach =>
      rw [hnone _ (List.mem_of_find?_eq_some (findNode_eq_some_iff.2 hnode))] at hforEach
      cases hforEach
  · intro n hn path template join cap hforEach
    rw [hnone n hn] at hforEach
    cases hforEach

/-- A published for-each over an approval, from the start `a` on: its template is visited and reported as
unreachable, and it fans out and is reported as a deadlock. -/
theorem forEach_false_alarm :
    let definition := Sample.definition [Sample.approval "a", Sample.node "f" (.forEach "context.items" "t" "j" none),
        Sample.approval "t", Sample.node "j" (.parallelJoin .waitAll)]
      [⟨"start", "a", .resubmitted⟩, Sample.approved "a" "f", Sample.approved "t" "j", Sample.approved "j" "end"]
    validateDefinition Sample.cel definition.nodes definition.transitions = .ok () ∧
      Reports definition.nodes definition.transitions "unreachable_node" "t" ∧
      Visits Sample.cel definition.nodes definition.transitions "t" ∧
      Reports definition.nodes definition.transitions "deadlock_node" "f" ∧
      (∃ outcome, OutcomeOf Sample.cel definition.nodes definition.transitions
        (Sample.node "f" (.forEach "context.items" "t" "j" none)) outcome ∧ outcome ≠ .error) ∧
      ¬ NoFalseAlarm Sample.cel definition.nodes definition.transitions := by
  intro definition
  have hvalid : validateDefinition Sample.cel definition.nodes definition.transitions = .ok () := by decide
  have hunreachable : Reports definition.nodes definition.transitions "unreachable_node" "t" := by
    refine (reports_unreachable_iff (n := Sample.approval "t") hvalid (by decide)).2 ⟨by decide, ?_⟩
    rintro ⟨start, hstart, hkind, hreach⟩
    have hids : ∀ n ∈ definition.nodes, n.kind = .start → n.id ∈ ["start", "a", "f"] := by decide
    have hclosed : (staticGraph definition.nodes definition.transitions).Closed ["start", "a", "f"] := by decide
    have hmem : (Sample.approval "t").id ∈ ["start", "a", "f"] := hclosed.reaches (hids start hstart hkind) hreach
    exact absurd hmem (by decide)
  have hfans : Decides Sample.cel definition.nodes definition.transitions "a"
      (.advanceMulti [⟨"t", .approval, some "manager", some 0, some (.num 1)⟩]) ⟨[], some ⟨"f", "j"⟩⟩ :=
    .signal (some (.obj [("items", .arr [.num 1])])) .approved
  have hvisits : Visits Sample.cel definition.nodes definition.transitions "t" :=
    .stands (.branch (.entry rfl) hfans (List.mem_singleton_self _))
  refine ⟨hvalid, hunreachable, hvisits, ?_, ?_, fun h => ?_⟩
  · rw [reports_deadlock_iff]
    decide
  · exact ⟨_, .routed (some (.obj [("items", .arr [.num 1])])) rfl, nofun⟩
  · exact h.unreachable (Sample.approval "t") (by decide) hunreachable hvisits

end Fusions.Hetuflow
