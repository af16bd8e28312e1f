import Fusions.Library.History
import Fusions.Hetuflow.Service.Moves
import Fusions.Hetuflow.Contract.FalseAlarms
import Fusions.Hetuflow.Contract.Replay

/-! Where the activities of a run come from: each is an entry, or what the resolution of an earlier one comes to. -/
namespace Fusions.Hetuflow
open Fusions.Library

section
variable (cel : Cel) (nodes : List WorkflowNode) (transitions : List WorkflowTransition)

/-- What the resolution of an activity comes to: a decision at its node, and further decisions at the joins that it
makes fire. -/
inductive Yields (id : String) : AdvanceOutcome → ResolveTrace → Prop where
  | decides {outcome : AdvanceOutcome} {trace : ResolveTrace} : Decides cel nodes transitions id outcome trace →
      Yields id outcome trace
  | joins {join : WorkflowNode} {role : Option String} {outcome : AdvanceOutcome} {trace trace' : ResolveTrace} :
      Yields id (.advance join.id role) trace → findNode nodes join.id = some join → join.kind = .parallelJoin →
      Decides cel nodes transitions join.id outcome trace' → Yields id outcome trace'
  | emptied {fan : ForEachFanOut} {outcome : AdvanceOutcome} {trace trace' : ResolveTrace} :
      Yields id (.advanceMulti []) trace → trace.forEachFanOut = some fan →
      Decides cel nodes transitions fan.joinTarget outcome trace' → Yields id outcome trace'

/-- What accounts for an activity among those before it: it is the entry of a new round, or the resolution of one of
them in its round comes to it, or a rework from one of them opens its round. -/
inductive Accounts (before : List ActivityRow) (a : ActivityRow) : Prop where
  | entry {role : Option String} : decideStart nodes = some (a.activityDefinitionId, role) →
      (∀ b ∈ before, b.round < a.round) → Accounts before a
  | advance {b : ActivityRow} {role : Option String} {trace : ResolveTrace} : b ∈ before → b.status ≠ .active →
      Yields cel nodes transitions b.activityDefinitionId (.advance a.activityDefinitionId role) trace →
      a.round = b.round → Accounts before a
  | branch {b : ActivityRow} {targets : List ParallelTarget} {t : ParallelTarget} {trace : ResolveTrace} :
      b ∈ before → b.status ≠ .active →
      Yields cel nodes transitions b.activityDefinitionId (.advanceMulti targets) trace → t ∈ targets →
      a.activityDefinitionId = t.nodeId → a.round = b.round → Accounts before a
  | rework {b : ActivityRow} {role : Option String} {trace : ResolveTrace} : b ∈ before → b.status ≠ .active →
      Yields cel nodes transitions b.activityDefinitionId (.rework a.activityDefinitionId role) trace →
      (∀ c ∈ before, c.round < a.round) → Accounts before a

end

section
variable {cel : Cel} {nodes : List WorkflowNode} {transitions : List WorkflowTransition} {id : String}
  {outcome : AdvanceOutcome} {trace : ResolveTrace} {before : List ActivityRow} {a : ActivityRow}

/-- A run stands where the resolution of an activity comes to. -/
theorem Yields.decides_of_stands (h : Yields cel nodes transitions id outcome trace)
    (hid : Stands cel nodes transitions id) :
    ∃ at', Stands cel nodes transitions at' ∧ Decides cel nodes transitions at' outcome trace := by
  induction h with
  | decides h => exact ⟨id, hid, h⟩
  | joins _ _ _ hdecides ih =>
    obtain ⟨at', hstands, hadvance⟩ := ih
    exact ⟨_, .advance hstands hadvance, hdecides⟩
  | emptied _ hfan hdecides ih =>
    obtain ⟨at', hstands, hfans⟩ := ih
    exact ⟨_, .emptied hstands hfans hfan, hdecides⟩

/-- An activity stands where runs stand, if those before it do. -/
theorem Accounts.stands (h : Accounts cel nodes transitions before a)
    (hbefore : ∀ b ∈ before, Stands cel nodes transitions b.activityDefinitionId) :
    Stands cel nodes transitions a.activityDefinitionId := by
  cases h with
  | entry hentry => exact .entry hentry
  | advance hb _ hyields =>
    obtain ⟨at', hstands, hdecides⟩ := hyields.decides_of_stands (hbefore _ hb)
    exact .advance hstands hdecides
  | branch hb _ hyields ht hid =>
    obtain ⟨at', hstands, hdecides⟩ := hyields.decides_of_stands (hbefore _ hb)
    rw [hid]
    exact .branch hstands hdecides ht
  | rework hb _ hyields =>
    obtain ⟨at', hstands, hdecides⟩ := hyields.decides_of_stands (hbefore _ hb)
    exact .rework hstands hdecides

/-- Activities are accounted for as they age. -/
theorem Accounts.aged {g : ActivityRow → ActivityRow} (hg : ∀ b, Aged b (g b))
    (h : Accounts cel nodes transitions before a) : Accounts cel nodes transitions (before.map g) (g a) := by
  have hmem : ∀ b ∈ before, b.status ≠ .active → b ∈ before.map g := fun b hb hs =>
    List.mem_map.2 ⟨b, hb, (hg b).settled hs⟩
  have hrounds : (∀ b ∈ before, b.round < a.round) → ∀ b ∈ before.map g, b.round < (g a).round := by
    intro hlt c hc
    obtain ⟨b, hb, rfl⟩ := List.mem_map.1 hc
    rw [(hg b).round, (hg a).round]
    exact hlt b hb
  cases h with
  | entry hentry hlt => exact .entry (by rwa [(hg a).node]) (hrounds hlt)
  | advance hb hs hyields hround =>
    exact .advance (hmem _ hb hs) hs (by rwa [(hg a).node]) ((hg a).round.trans hround)
  | branch hb hs hyields ht hid hround =>
    exact .branch (hmem _ hb hs) hs hyields ht ((hg a).node.trans hid) ((hg a).round.trans hround)
  | rework hb hs hyields hlt => exact .rework (hmem _ hb hs) hs (by rwa [(hg a).node]) (hrounds hlt)

end

/-- The activities of an instance are accounted for, each by those before it. -/
abbrev InstanceRows.Lineage (svc : WorkflowService) (r : InstanceRows) : Prop :=
  History (Accounts svc.cel r.snapshot.nodes r.snapshot.transitions) r.activities

theorem InstanceRows.round_le_maxRound {r : InstanceRows} {a : ActivityRow} (ha : a ∈ r.activities) :
    a.round ≤ r.maxRound := by
  unfold maxRound
  have hmem : a.round ∈ r.activities.map ActivityRow.round := List.mem_map_of_mem ha
  rw [List.foldl_max]
  cases hmax : (r.activities.map ActivityRow.round).max? with
  | none =>
    rw [List.max?_eq_none_iff.1 hmax] at hmem
    cases hmem
  | some m => exact Int.le_trans ((List.max?_eq_some_iff.1 hmax).2 _ hmem) (Int.le_max_right ..)

/-- A step that schedules nothing: the activities age. -/
def InstanceRows.Idles (r r' : InstanceRows) : Prop :=
  r'.snapshot = r.snapshot ∧ ∃ g, r'.activities = r.activities.map g ∧ ∀ a, Aged a (g a)

namespace InstanceRows.Idles
variable {svc : WorkflowService} {r r₁ r' : InstanceRows}

theorem same (hsnapshot : r'.snapshot = r.snapshot) (hrows : r'.activities = r.activities) : r.Idles r' :=
  ⟨hsnapshot, fun a => a, by simpa using hrows, .refl⟩

theorem trans (h : r.Idles r₁) (k : r₁.Idles r') : r.Idles r' := by
  obtain ⟨hsnapshot, g, hrows, haged⟩ := h
  obtain ⟨hsnapshot', g', hrows', haged'⟩ := k
  exact ⟨hsnapshot'.trans hsnapshot, g' ∘ g, by rw [hrows', hrows, List.map_map],
    fun a => (haged a).trans (haged' (g a))⟩

/-- An update of active rows. -/
theorem update {p : ActivityRow → Bool} {f : ActivityRow → ActivityRow} (hp : ∀ a, p a = true → a.status = .active)
    (hf : ∀ a, (f a).id = a.id ∧ (f a).activityDefinitionId = a.activityDefinitionId ∧
      (f a).activityType = a.activityType ∧ (f a).round = a.round) : r.Idles (r.updateActivities p f) := by
  refine ⟨rfl, _, rfl, fun a => ?_⟩
  split
  · next ha =>
    obtain ⟨hid, hnode, htype, hround⟩ := hf a
    exact ⟨hid, hnode, htype, hround, fun hs => absurd (hp a ha) hs⟩
  · exact .refl a

theorem updateActive (id : Uuid) (f : ActivityRow → ActivityRow)
    (hf : ∀ a, (f a).id = a.id ∧ (f a).activityDefinitionId = a.activityDefinitionId ∧
      (f a).activityType = a.activityType ∧ (f a).round = a.round) :
    r.Idles (r.updateActivities (ActivityRow.isActive id) f) :=
  update (fun a ha => ((ActivityRow.isActive_iff id a).1 ha).2) hf

theorem lineage (h : r.Idles r') (hr : r.Lineage svc) : r'.Lineage svc := by
  obtain ⟨hsnapshot, g, hrows, haged⟩ := h
  unfold InstanceRows.Lineage
  rw [hsnapshot, hrows]
  exact hr.map fun _ _ ha => ha.aged haged

/-- A row that is no longer active stays as it is. -/
theorem settled (h : r.Idles r') {a : ActivityRow} (ha : a ∈ r.activities) (hs : a.status ≠ .active) :
    a ∈ r'.activities := by
  obtain ⟨-, g, hrows, haged⟩ := h
  rw [hrows]
  exact List.mem_map.2 ⟨a, ha, (haged a).settled hs⟩

variable (r) (now : Time)

theorem log (t : EventType) (p : Json) (k : Option String) : r.Idles (r.log now t p k) := .same rfl rfl

theorem pointTo (id : Uuid) : r.Idles (r.pointTo id) := by
  refine .same ?_ (InstanceRows.pointTo_activities ..)
  unfold InstanceRows.pointTo
  split <;> rfl

theorem enqueueOutbox (o : OutboxRow) : r.Idles (r.enqueueOutbox o) := by
  refine .same ?_ (InstanceRows.enqueueOutbox_activities ..)
  unfold InstanceRows.enqueueOutbox
  split <;> rfl

theorem resume (a : ActivityInstance) : r.Idles (r.resume now a) := by
  refine .same ?_ (InstanceRows.resume_activities ..)
  unfold InstanceRows.resume
  split <;> rfl

theorem assign (cmd : SignalCommand) (id : Uuid) : r.Idles (r.assign now cmd id) :=
  (updateActive id (fun a => { a with assigneeId := cmd.assigneeId }) fun _ => ⟨rfl, rfl, rfl, rfl⟩).trans (.same rfl rfl)

theorem escalate (a : ActivityInstance) (role : String) : r.Idles (r.escalate now a role) :=
  (updateActive a.id (fun a => { a with assigneeRole := some role }) fun _ => ⟨rfl, rfl, rfl, rfl⟩).trans
    (.same rfl rfl)

theorem complete (id : Uuid) (result : Option String) (actor : Int) (notes : Option String) (payload : Json) :
    r.Idles (r.completeActivity now id result actor notes payload) :=
  (updateActive id (ActivityRow.complete (result.bind activityResultFromStr) actor notes now) fun _ =>
    ⟨rfl, rfl, rfl, rfl⟩).trans (.same rfl rfl)

theorem resolve (cmd : SignalCommand) (a : ActivityInstance) : r.Idles (r.resolve now cmd a) :=
  ((log r now ..).trans (complete ..)).trans (resume ..)

theorem timeOut (id : Uuid) : r.Idles (r.timeOutActivity now id) :=
  (updateActive id ActivityRow.skip fun _ => ⟨rfl, rfl, rfl, rfl⟩).trans (.same rfl rfl)

theorem fire (join : WorkflowNode) (round arrived expected : Int) (exclude : Option Uuid) :
    r.Idles (r.fire now join round arrived expected exclude) := by
  refine ⟨fire_snapshot .., ?_⟩
  rw [fire_activities]
  split
  · obtain ⟨-, g, hrows, haged⟩ := update (r := r) (p := ActivityRow.isOtherActive (exclude.getD Uuid.nil))
      (f := ActivityRow.skip) (fun a ha => ((ActivityRow.isOtherActive_iff _ a).1 ha).2) fun _ => ⟨rfl, rfl, rfl, rfl⟩
    exact ⟨g, hrows, haged⟩
  · exact ⟨fun a => a, by simp, .refl⟩

end InstanceRows.Idles

section
variable {svc : WorkflowService} {env : Env} {ctx : InstanceCtx} {source : ActivityInstance} {round : Int}
  {r r' : InstanceRows} {b : ActivityRow}

/-- The row of a source is resolved, and stays so. -/
structure ActivityRow.Resolved (b : ActivityRow) (source : ActivityInstance) (round : Int) (r : InstanceRows) : Prop where
  mem : b ∈ r.activities
  settled : b.status ≠ .active
  node : b.activityDefinitionId = source.activityDefinitionId
  round_eq : b.round = round

theorem ActivityRow.Resolved.idles (h : b.Resolved source round r) (hidles : r.Idles r') : b.Resolved source round r' :=
  { h with mem := hidles.settled h.mem h.settled }

/-- One more activity, accounted for. -/
theorem Scheduled.lineage {tenantId : Int} {node : WorkflowNode} {role : Option String} {n : Int}
    {fanout : Option FanoutMark} {row : ActivityRow} (h : Scheduled env tenantId node role n fanout r row r')
    (hr : r.Lineage svc)
    (haccounts : row.activityDefinitionId = node.id → row.round = n →
      Accounts svc.cel r.snapshot.nodes r.snapshot.transitions r.activities row) : r'.Lineage svc := by
  unfold InstanceRows.Lineage
  rw [h.snapshot, h.activities]
  exact .snoc hr (haccounts (by rw [h.row_eq]; rfl) (by rw [h.row_eq]; rfl))

theorem Branches.lineage {via : String} {targets all : List ParallelTarget} {trace : ResolveTrace}
    {rows : List ActivityRow} (h : Branches env ctx round via targets r rows r') (hall : ∀ t ∈ targets, t ∈ all)
    (hsnapshot : r.snapshot = ctx.snapshot)
    (hyields : Yields svc.cel ctx.snapshot.nodes ctx.snapshot.transitions source.activityDefinitionId
      (.advanceMulti all) trace) (hb : b.Resolved source round r) (hr : r.Lineage svc) : r'.Lineage svc := by
  induction h with
  | nil => exact hr
  | @cons t ts node row rows r r₁ r₂ hnode hsched _ ih =>
    obtain ⟨ht, hts⟩ := List.forall_mem_cons.1 hall
    have hlineage : r₁.Lineage svc := by
      refine hsched.lineage hr fun hid hround => ?_
      rw [hsnapshot]
      refine .branch hb.mem hb.settled (by rw [hb.node]; exact hyields) ht ?_ (hround.trans hb.round_eq.symm)
      exact hid.trans (InstanceCtx.node_ok hnode).2
    refine ih hts (hsched.snapshot.trans hsnapshot) { hb with mem := ?_ } hlineage
    rw [hsched.activities]
    exact List.mem_append_left _ hb.mem

/-- An outcome that the resolution of its source comes to schedules what is accounted for. -/
theorem Applied.lineage {outcome : AdvanceOutcome} {trace : ResolveTrace}
    (h : Applied env ctx source round svc outcome trace r r') (hsnapshot : r.snapshot = ctx.snapshot)
    (hyields : Yields svc.cel ctx.snapshot.nodes ctx.snapshot.transitions source.activityDefinitionId outcome trace)
    (hb : b.Resolved source round r) (hr : r.Lineage svc) : r'.Lineage svc := by
  induction h with
  | @schedule target role trace r r₁ node row hnode _ hsched =>
    have hidles : r.Idles (r.passMerges env.now source.activityDefinitionId round trace.mergesPassed) :=
      .same (by simp) (by simp)
    have hlineage : r₁.Lineage svc := by
      refine hsched.lineage (hidles.lineage hr) fun hid hround => ?_
      have hb' := hb.idles hidles
      rw [← hb.node, ← (InstanceCtx.node_ok hnode).2, ← hid] at hyields
      rw [hidles.1, hsnapshot]
      exact .advance hb'.mem hb'.settled hyields (hround.trans hb.round_eq.symm)
    exact (InstanceRows.Idles.pointTo ..).lineage hlineage
  | @fan targets trace r r₁ rows _ hbranches =>
    have hidles : r.Idles (fanOutRows env source round trace targets r) :=
      .same (passMerges_snapshot ..) (passMerges_activities ..)
    exact hbranches.lineage (fun _ ht => ht) (hidles.1.trans hsnapshot) hyields (hb.idles hidles) (hidles.lineage hr)
  | wait hreach _ _ =>
    obtain ⟨hrows, hsnap, -⟩ := hreach.rows
    exact InstanceRows.Idles.lineage (.same hsnap hrows) hr
  | @fire outcome trace r r₁ r₂ join exclude arrived expected hreach _ _ _ ih =>
    obtain ⟨hrows, hsnap, -⟩ := hreach.rows
    have hidles : r.Idles (r₁.fire env.now join round arrived expected exclude) :=
      (InstanceRows.Idles.same hsnap hrows).trans (.fire ..)
    refine ih (hidles.1.trans hsnapshot) ?_ (hb.idles hidles) (hidles.lineage hr)
    cases hreach with
    | arrive hjoin hkind =>
      obtain ⟨hfind, rfl⟩ := InstanceCtx.node_ok hjoin
      exact .joins hyields hfind hkind (.signal ..)
    | emptyFanOut hfan hjoin =>
      refine .emptied hyields hfan ?_
      rw [← (InstanceCtx.node_ok hjoin).2]
      exact .signal ..
  | complete _ hr₁ _ =>
    subst hr₁
    exact InstanceRows.Idles.lineage (.same (passMerges_snapshot ..) (passMerges_activities ..)) hr
  | @rework target role trace r r₁ node row _ _ hnode hsched =>
    have hidles : r.Idles (r.passMerges env.now source.activityDefinitionId round trace.mergesPassed) :=
      .same (by simp) (by simp)
    have hlineage : r₁.Lineage svc := by
      refine hsched.lineage (hidles.lineage hr) fun hid hround => ?_
      have hb' := hb.idles hidles
      rw [← hb.node, ← (InstanceCtx.node_ok hnode).2, ← hid] at hyields
      rw [hidles.1, hsnapshot]
      refine .rework hb'.mem hb'.settled hyields fun c hc => ?_
      rw [passMerges_activities] at hc
      have hle := InstanceRows.round_le_maxRound hc
      omega
    exact InstanceRows.Idles.lineage (r := r₁) (.same rfl rfl) hlineage
  | error =>
    refine InstanceRows.Idles.lineage (.same ?_ ?_) hr
    · unfold InstanceRows.errorOut
      split <;> exact passMerges_snapshot ..
    · exact (InstanceRows.errorOut_activities _).trans (passMerges_activities ..)

/-- A completion resolves the row of its activity. -/
theorem resolved_complete {row : ActivityRow} (hrow : row ∈ r.activities) (hactive : row.status = .active)
    {now : Time} {result : Option String} {actor : Int} {notes : Option String} {payload : Json} (instanceId : Uuid) :
    (row.complete (result.bind activityResultFromStr) actor notes now).Resolved (row.intoModel instanceId) row.round
      (r.completeActivity now row.id result actor notes payload) where
  mem := List.mem_map.2 ⟨row, hrow, if_pos ((ActivityRow.isActive_iff _ _).2 ⟨rfl, hactive⟩)⟩
  settled := nofun
  node := rfl
  round_eq := rfl

theorem Effect.lineage {call : Call} (h : Effect svc env call r r') (hr : r.Lineage svc) : r'.Lineage svc := by
  cases h with
  | nothing => exact hr
  | assignee => exact (InstanceRows.Idles.assign ..).lineage hr
  | @advance cmd _ r₁ _ row node ctx _ _ _ hrow hactive _ _ hctx happly =>
    have hwritten : r.Idles r₁ := by
      cases hctx with
      | none => exact .same rfl rfl
      | merged => exact .same rfl rfl
    have hrow₁ : row ∈ r₁.activities := by
      cases hctx with
      | none => exact hrow
      | merged => exact hrow
    have hlogged : row ∈ (r₁.log env.now .signalReceived
        (reviewPayload cmd.signal row.id cmd.actorUserId cmd.reviewNotes) (some cmd.idempotencyKey)).activities := hrow₁
    have hidles : r.Idles (r₁.resolve env.now cmd (row.intoModel r.inst.id)) := hwritten.trans (.resolve ..)
    exact happly.lineage (hidles.1.trans hctx.snapshot.symm) (.decides (.signal ..))
      ((resolved_complete hlogged hactive r.inst.id).idles (.resume ..)) (hidles.lineage hr)
  | @reenter _ key r r₁ entryId entryRole node row _ _ _ _ hentry hnode hsched =>
    have hidles : r.Idles (r.reactivate env.now (r.maxRound + 1) key) := .same rfl rfl
    have hlineage : r₁.Lineage svc := by
      refine hsched.lineage (hidles.lineage hr) fun hid hround => ?_
      rw [← (InstanceCtx.node_ok hnode).2, ← hid] at hentry
      refine .entry hentry fun b hb => ?_
      have hle := InstanceRows.round_le_maxRound (r := r) hb
      omega
    exact (InstanceRows.Idles.pointTo ..).lineage hlineage
  | timerGone => exact InstanceRows.Idles.lineage (.same rfl rfl) hr
  | @reminder t _ row node =>
    have hfired : r.Idles (r.timerFired env.now t row.id node.id) := .same rfl rfl
    exact (hfired.trans (.enqueueOutbox ..)).lineage hr
  | escalationGone => exact InstanceRows.Idles.lineage (.same rfl rfl) hr
  | @escalated t _ row node =>
    have hfired : r.Idles (r.timerFired env.now t row.id node.id) := .same rfl rfl
    exact ((hfired.trans (.escalate ..)).trans (.enqueueOutbox ..)).lineage hr
  | @timedOut t _ _ row node _ _ _ hrow hactive _ _ happly =>
    have hfired : r.Idles (r.timerFired env.now t row.id node.id) := .same rfl rfl
    have hidles := hfired.trans (.timeOut _ env.now row.id)
    have hskipped : row.skip.Resolved (row.intoModel r.inst.id) row.round
        ((r.timerFired env.now t row.id node.id).timeOutActivity env.now row.id) :=
      { mem := List.mem_map.2 ⟨row, hrow, if_pos ((ActivityRow.isActive_iff _ _).2 ⟨rfl, hactive⟩)⟩
        settled := nofun
        node := rfl
        round_eq := rfl }
    exact happly.lineage hidles.1 (.decides (.timeout ..)) hskipped (hidles.lineage hr)
  | @delivered _ _ row hrow hactive _ _ happly =>
    have hidles : r.Idles (r.deliver env.now row.id) := .complete ..
    exact happly.lineage hidles.1 (.decides (.signal ..)) (resolved_complete hrow hactive _) (hidles.lineage hr)
  | callback => exact InstanceRows.Idles.lineage (.same rfl rfl) hr
  | deadLetter => exact InstanceRows.Idles.lineage (.same rfl rfl) hr

theorem Started.lineage {supply : Supply} {cmd : StartCommand} (h : Started svc env supply cmd r) :
    r.Lineage svc := by
  obtain ⟨entryId, entryRole, node, row, r₁, hentry, hfind, hsched, rfl⟩ := h.rows
  have hlineage : r₁.Lineage svc := by
    refine hsched.lineage .nil fun hid _ => ?_
    rw [← id_of_findNode hfind, ← hid] at hentry
    exact .entry hentry fun b hb => absurd hb List.not_mem_nil
  exact (InstanceRows.Idles.pointTo ..).lineage hlineage

end

/-- Every activity of every run is accounted for by those scheduled before it. So it stands where the declared runs
stand, and where the lint's graph follows these, never on a node that the lint reports unreachable. -/
theorem activities_accounted {svc : WorkflowService} {store : Store} {r : InstanceRows}
    (h : (engine svc).Reachable store) (hr : r ∈ store) :
    (∀ before a after, r.activities = before ++ a :: after →
      Accounts svc.cel r.snapshot.nodes r.snapshot.transitions before a) ∧
    ∀ a ∈ r.activities, Stands svc.cel r.snapshot.nodes r.snapshot.transitions a.activityDefinitionId ∧
      (FollowsLint svc.cel r.snapshot.nodes r.snapshot.transitions →
        ¬ Reports r.snapshot.nodes r.snapshot.transitions "unreachable_node" a.activityDefinitionId) := by
  have w := (wellFormed_of_reachable h).rows r hr
  have hlineage : r.Lineage svc :=
    rows_invariant (fun _ _ _ _ hstarted => hstarted.lineage) (fun _ _ _ _ _ hrows heffect => heffect.lineage hrows) h r hr
  refine ⟨fun before a after hrows => ?_, fun a ha => ?_⟩
  · unfold InstanceRows.Lineage at hlineage
    rw [hrows] at hlineage
    exact hlineage.accounted
  · have hstands : Stands svc.cel r.snapshot.nodes r.snapshot.transitions a.activityDefinitionId := by
      have hall := hlineage.forall_mem
        (P := fun a => Stands svc.cel r.snapshot.nodes r.snapshot.transitions a.activityDefinitionId)
        fun _ _ hbefore haccounts => haccounts.stands hbefore
      exact hall a ha
    refine ⟨hstands, fun hfollows hreported => ?_⟩
    obtain ⟨node, hfind, -⟩ := w.nodes a ha
    have hmem := List.mem_of_find?_eq_some hfind
    rw [← id_of_findNode hfind] at hreported hstands
    exact ((reports_unreachable_iff w.valid hmem).1 hreported).2 (hfollows.stands w.valid hstands)

theorem activities_accounted_reworked : ∃ r ∈ reworked,
    r.activities.map ActivityRow.activityDefinitionId = ["a", "b", "a", "b"] ∧
      (∀ before a after, r.activities = before ++ a :: after →
        Accounts Sample.cel r.snapshot.nodes r.snapshot.transitions before a) ∧
      ∀ a ∈ r.activities, Stands Sample.cel r.snapshot.nodes r.snapshot.transitions a.activityDefinitionId := by
  have hrows : ∃ r ∈ reworked, r.activities.map ActivityRow.activityDefinitionId = ["a", "b", "a", "b"] := by decide
  obtain ⟨r, hr, hnodes⟩ := hrows
  obtain ⟨haccounts, hstands⟩ := activities_accounted (reachable_played ..) hr
  exact ⟨r, hr, hnodes, haccounts, fun a ha => (hstands a ha).1⟩

end Fusions.Hetuflow
