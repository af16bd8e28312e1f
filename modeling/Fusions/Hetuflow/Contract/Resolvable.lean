import Fusions.Hetuflow.Service.Invariant
import Fusions.Hetuflow.Service.Script

/-! Every active activity can be resolved: by a signal its node takes, by its delivery, or by a timeout
that is still pending. -/
namespace Fusions.Hetuflow
open Fusions.Library

/-- The node has no way on but its timeout. -/
def WorkflowNode.OnlyTimesOut (node : WorkflowNode) (transitions : List WorkflowTransition) : Prop :=
  node.kind = .eventWait ∧ hasOutgoing transitions node.id .eventReceived = false

namespace InstanceRows
variable (r : InstanceRows)

/-- A signal the node takes has a transition or ends the instance, a pending timeout leads on, or the
delivery of a notification does. -/
def Resolvable (a : ActivityRow) (node : WorkflowNode) : Prop :=
  (∃ signal eventType, checkSignalAgainstNode node signal eventType = .ok () ∧
    ((findNextTransition r.snapshot.transitions node.id signal).isSome = true ∨
      signal = .rejected ∨ signal = .returned)) ∨
  (r.IsPending a.id (timerKindI16 "timeout") ∧ ∃ eventType secs target,
    node.eventWait = some (eventType, secs, some target)) ∨
  (node.kind = .notification ∧ a.activityType = .notification ∧
    (findNextTransition r.snapshot.transitions node.id .completed).isSome = true)

/-- Every activity is on a node that takes a signal, and the timeout of an active one is pending where
nothing else leads on. -/
structure Attended : Prop where
  nodes : ∀ a ∈ r.activities, ∃ node, findNode r.snapshot.nodes a.activityDefinitionId = some node ∧
    node.TakesSignal
  armed : ∀ a ∈ r.activities, a.status = .active → ∀ node,
    findNode r.snapshot.nodes a.activityDefinitionId = some node → node.OnlyTimesOut r.snapshot.transitions →
    (node.eventWait.any fun w => w.2.1.isSome) = true → r.IsPending a.id (timerKindI16 "timeout")

/-- Activities only leave `Active`, and those that stay keep the timeouts they have pending. -/
structure Lasts (r r' : InstanceRows) : Prop where
  snapshot : r'.snapshot = r.snapshot
  rows : ∀ a' ∈ r'.activities, ∃ a ∈ r.activities, a'.id = a.id ∧
    a'.activityDefinitionId = a.activityDefinitionId ∧ (a'.status = .active → a.status = .active ∧
      (r.IsPending a.id (timerKindI16 "timeout") → r'.IsPending a.id (timerKindI16 "timeout")))

end InstanceRows

open InstanceRows

namespace InstanceRows.Lasts
variable {r r' r₁ r₂ r₃ : InstanceRows}

theorem refl (r : InstanceRows) : Lasts r r := ⟨rfl, fun a ha => ⟨a, ha, rfl, rfl, fun hs => ⟨hs, id⟩⟩⟩

theorem trans (h : Lasts r₁ r₂) (k : Lasts r₂ r₃) : Lasts r₁ r₃ where
  snapshot := k.snapshot.trans h.snapshot
  rows := by
    intro c hc
    obtain ⟨b, hb, hid, hdef, hstatus⟩ := k.rows c hc
    obtain ⟨a, ha, hid', hdef', hstatus'⟩ := h.rows b hb
    refine ⟨a, ha, hid.trans hid', hdef.trans hdef', fun hs => ?_⟩
    obtain ⟨hb, hpending⟩ := hstatus hs
    obtain ⟨ha, hpending'⟩ := hstatus' hb
    rw [hid'] at hpending
    exact ⟨ha, hpending ∘ hpending'⟩

theorem attended (h : Lasts r r') (hr : r.Attended) : r'.Attended where
  nodes := by
    intro a' ha'
    obtain ⟨a, ha, -, hdef, -⟩ := h.rows a' ha'
    rw [hdef, h.snapshot]
    exact hr.nodes a ha
  armed := by
    intro a' ha' hactive node hfind htimes hsecs
    obtain ⟨a, ha, hid, hdef, hstatus⟩ := h.rows a' ha'
    obtain ⟨hactive, hpending⟩ := hstatus hactive
    rw [hdef, h.snapshot] at hfind
    rw [h.snapshot] at htimes
    rw [hid]
    exact hpending (hr.armed a ha hactive node hfind htimes hsecs)

/-- Rows and timers stay as they are. -/
theorem same (hsnapshot : r'.snapshot = r.snapshot) (hactivities : r'.activities = r.activities)
    (htimers : r'.timers = r.timers) : Lasts r r' := by
  refine ⟨hsnapshot, fun a ha => ?_⟩
  rw [hactivities] at ha
  exact ⟨a, ha, rfl, rfl, fun hs => ⟨hs, by unfold IsPending; rw [htimers]; exact id⟩⟩

theorem log (r : InstanceRows) (now : Time) (t : EventType) (p : Json) (k : Option String) :
    Lasts r (r.log now t p k) := .same rfl rfl rfl

theorem updateInstance (r : InstanceRows) (f : WorkflowInstance → WorkflowInstance) :
    Lasts r (r.updateInstance f) := .same rfl rfl rfl

theorem passMerges (r : InstanceRows) (now : Time) (f : String) (n : Int) (ms : List String) :
    Lasts r (r.passMerges now f n ms) :=
  InstanceRows.passMerges_induction ms (.refl r) fun r' p hr => hr.trans (log r' now .mergePassed p none)

theorem pointTo (r : InstanceRows) (id : Uuid) : Lasts r (r.pointTo id) := by
  unfold InstanceRows.pointTo
  split
  · exact updateInstance ..
  · exact .refl _

theorem errorOut (r : InstanceRows) : Lasts r r.errorOut := by
  unfold InstanceRows.errorOut
  split
  · exact updateInstance ..
  · exact .refl _

theorem resume (r : InstanceRows) (now : Time) (a : ActivityInstance) : Lasts r (r.resume now a) := by
  unfold InstanceRows.resume
  split
  · exact (updateInstance ..).trans (log ..)
  · exact .refl _

theorem outbox (r : InstanceRows) (os : List OutboxRow) : Lasts r { r with outbox := r.outbox ++ os } :=
  .same rfl rfl rfl

theorem enqueueOutbox (r : InstanceRows) (o : OutboxRow) : Lasts r (r.enqueueOutbox o) := by
  unfold InstanceRows.enqueueOutbox
  split
  · exact .refl _
  · exact outbox ..

/-- An update of rows that makes none of them active. -/
theorem updateActivities (r : InstanceRows) (p : ActivityRow → Bool) (f : ActivityRow → ActivityRow)
    (hid : ∀ a, (f a).id = a.id) (hdef : ∀ a, (f a).activityDefinitionId = a.activityDefinitionId)
    (hstatus : ∀ a, (f a).status = .active → a.status = .active) : Lasts r (r.updateActivities p f) := by
  refine ⟨rfl, fun a' ha' => ?_⟩
  obtain ⟨a, ha, rfl⟩ := List.mem_map.1 ha'
  refine ⟨a, ha, ?_⟩
  split
  · exact ⟨hid a, hdef a, fun hs => ⟨hstatus a hs, id⟩⟩
  · exact ⟨rfl, rfl, fun hs => ⟨hs, id⟩⟩

/-- Timers of activities that are not active may end. -/
theorem updateTimers (r : InstanceRows) (p : TimerRow → Bool) (status : TimerStatus)
    (h : ∀ a ∈ r.activities, a.status = .active → ∀ t ∈ r.timers, t.activityInstanceId = a.id →
      t.timerKind = timerKindI16 "timeout" → t.status = .pending → p t = false) :
    Lasts r (r.updateTimers p status) := by
  refine ⟨rfl, fun a ha => ⟨a, ha, rfl, rfl, fun hs => ⟨hs, ?_⟩⟩⟩
  rintro ⟨t, ht, hown, hkind, hpending⟩
  refine ⟨t, List.mem_map.2 ⟨t, ht, ?_⟩, hown, hkind, hpending⟩
  simp [h a ha hs t ht hown hkind hpending]

/-- An activity that ends takes its timers with it. -/
theorem settle (r : InstanceRows) (id : Uuid) (f : ActivityRow → ActivityRow) (hid : ∀ a, (f a).id = a.id)
    (hdef : ∀ a, (f a).activityDefinitionId = a.activityDefinitionId) (hstatus : ∀ a, (f a).status ≠ .active) :
    Lasts r ((r.updateActivities (ActivityRow.isActive id) f).cancelTimersOf id) := by
  refine (updateActivities r _ f hid hdef fun a hs => absurd hs (hstatus a)).trans (updateTimers _ _ _ ?_)
  intro a' ha' hactive t _ hown _ _
  obtain ⟨a, -, rfl⟩ := List.mem_map.1 ha'
  refine beq_eq_false_iff_ne.2 fun heq => ?_
  split at hactive
  · exact hstatus a hactive
  · next hmiss =>
    rw [if_neg hmiss] at hown
    exact hmiss ((ActivityRow.isActive_iff ..).2 ⟨hown.symm.trans heq, hactive⟩)

theorem completeActivity (r : InstanceRows) (now : Time) (id : Uuid) (result : Option String) (actor : Int)
    (notes : Option String) (payload : Json) : Lasts r (r.completeActivity now id result actor notes payload) :=
  (settle r id (ActivityRow.complete (result.bind activityResultFromStr) actor notes now) (fun _ => rfl)
    (fun _ => rfl) fun a => by simp [ActivityRow.complete]).trans (log ..)

theorem timeOutActivity (r : InstanceRows) (now : Time) (id : Uuid) : Lasts r (r.timeOutActivity now id) :=
  (settle r id ActivityRow.skip (fun _ => rfl) (fun _ => rfl) fun a => by simp [ActivityRow.skip]).trans (log ..)

theorem resolve (r : InstanceRows) (now : Time) (cmd : SignalCommand) (a : ActivityInstance) :
    Lasts r (r.resolve now cmd a) :=
  ((log r now ..).trans (completeActivity ..)).trans (resume ..)

/-- Activities are skipped, and those that are not keep their timeouts. -/
theorem skipped {p : ActivityRow → Bool} (hsnapshot : r'.snapshot = r.snapshot)
    (hrows : r'.activities = (r.updateActivities p ActivityRow.skip).activities)
    (hkept : ∀ a, ¬ p a = true → a.status = .active → r.IsPending a.id (timerKindI16 "timeout") →
      r'.IsPending a.id (timerKindI16 "timeout")) : Lasts r r' := by
  refine ⟨hsnapshot, fun a' ha' => ?_⟩
  rw [hrows] at ha'
  obtain ⟨a, ha, rfl⟩ := List.mem_map.1 ha'
  refine ⟨a, ha, ?_⟩
  split
  · exact ⟨rfl, rfl, by simp [ActivityRow.skip]⟩
  · next hmiss => exact ⟨rfl, rfl, fun hactive => ⟨hactive, hkept a hmiss hactive⟩⟩

theorem skipOthers (r : InstanceRows) (exclude : Uuid) : Lasts r (r.skipOthers exclude) := by
  refine skipped rfl rfl fun a hkept hactive => ?_
  rintro ⟨t, ht, hown, hkind, hpending⟩
  refine ⟨t, List.mem_map.2 ⟨t, ht, ?_⟩, hown, hkind, hpending⟩
  have hother : (r.activities.any fun x => x.isOtherActive exclude && x.id == t.activityInstanceId) = false := by
    refine List.any_eq_false.2 fun x _ hx => hkept ?_
    simp only [Bool.and_eq_true, ActivityRow.isOtherActive_iff, beq_iff_eq] at hx
    exact (ActivityRow.isOtherActive_iff ..).2 ⟨fun heq => hx.1.1 (by rw [hx.2, hown, heq]), hactive⟩
  simp [hother]

theorem fire (r : InstanceRows) (now : Time) (join : WorkflowNode) (round arrived expected : Int)
    (exclude : Option Uuid) : Lasts r (r.fire now join round arrived expected exclude) := by
  unfold InstanceRows.fire InstanceRows.skipRemaining
  dsimp only
  split
  · split
    · exact ((log r now ..).trans (skipOthers ..)).trans (log ..)
    · exact (log r now ..).trans (skipOthers ..)
  · exact log ..

end InstanceRows.Lasts

section
variable {svc : WorkflowService} {env : Env} {ctx : InstanceCtx} {source : ActivityInstance} {round : Int}
  {r r' : InstanceRows}

theorem Scheduled.attended {tenantId : Int} {node : WorkflowNode} {role : Option String} {n : Int}
    {fanout : Option FanoutMark} {row : ActivityRow} (h : Scheduled env tenantId node role n fanout r row r')
    (hr : r.Attended) (hfind : findNode r.snapshot.nodes node.id = some node) (htakes : node.TakesSignal) :
    r'.Attended := by
  have hdef : row.activityDefinitionId = node.id := by rw [h.row_eq]; rfl
  constructor
  · intro a ha
    rw [h.activities] at ha
    rw [h.snapshot]
    rcases List.mem_append.1 ha with ha | ha
    · exact hr.nodes a ha
    · rw [List.mem_singleton.1 ha, hdef]
      exact ⟨node, hfind, htakes⟩
  · intro a ha hactive node' hfind' htimes hsecs
    rw [h.activities] at ha
    rw [h.snapshot] at hfind' htimes
    rcases List.mem_append.1 ha with ha | ha
    · obtain ⟨t, ht, hrest⟩ := hr.armed a ha hactive node' hfind' htimes hsecs
      obtain ⟨ts, hts, -⟩ := h.timers
      exact ⟨t, by rw [hts]; exact List.mem_append_left _ ht, hrest⟩
    · obtain rfl := List.mem_singleton.1 ha
      rw [hdef, hfind] at hfind'
      cases hfind'
      refine h.armed _ (List.mem_map_of_mem ?_)
      simp [nodeTimerKinds, hsecs]

theorem Branches.attended {via : String} {targets : List ParallelTarget} {rows : List ActivityRow}
    (h : Branches env ctx round via targets r rows r') (hr : r.Attended) (hsnapshot : r.snapshot = ctx.snapshot)
    (htakes : ∀ t ∈ targets, ∃ node, findNode ctx.snapshot.nodes t.nodeId = some node ∧ node.TakesSignal) :
    r'.Attended := by
  induction h with
  | nil => exact hr
  | cons hnode hsched _ ih =>
    obtain ⟨⟨node, hnode', hsignal⟩, htakes⟩ := List.forall_mem_cons.1 htakes
    obtain ⟨hfind, hid⟩ := InstanceCtx.node_ok hnode
    rw [hfind] at hnode'
    cases hnode'
    exact ih (hsched.attended hr (by rw [hsnapshot, hid]; exact hfind) hsignal)
      (hsched.snapshot.trans hsnapshot) htakes

private theorem lasts_fanOutRows (trace : ResolveTrace) (targets : List ParallelTarget) (r : InstanceRows) :
    Lasts r (fanOutRows env source round trace targets r) :=
  ((Lasts.passMerges ..).trans (.updateInstance ..)).trans (.log ..)

private theorem Reaches.lasts {outcome : AdvanceOutcome} {trace : ResolveTrace} {join : WorkflowNode}
    {exclude : Option Uuid} (h : Reaches env ctx source round outcome trace r join exclude r') : Lasts r r' := by
  cases h with
  | arrive => exact (Lasts.passMerges ..).trans (.log ..)
  | emptyFanOut => exact lasts_fanOutRows ..

/-- A join's APPROVED edge hands nothing back. -/
private theorem approved_lands (cel : Cel) (snapshot : DefinitionSnapshot) (context : Option Json) (id : String) :
    (decideAdvance cel snapshot.nodes snapshot.transitions context id .approved).1.Lands snapshot.nodes := by
  refine decideAdvance_lands fun target role join hrework _ => ?_
  cases signal_of_rework hrework

/-- A node that is scheduled after the merges of a trace, found under the id that an outcome lands on. -/
private theorem Scheduled.attended_landed {target : String} {role : Option String} {n : Int} {trace : ResolveTrace}
    {node : WorkflowNode} {row : ActivityRow} (hr : r.Attended) (hsnapshot : r.snapshot = ctx.snapshot)
    (h : Scheduled env ctx.tenantId node role n none
      (r.passMerges env.now source.activityDefinitionId round trace.mergesPassed) row r')
    (hnode : ctx.node target = .ok node) (htakes : node.TakesSignal) : r'.Attended := by
  obtain ⟨hfind, hid⟩ := InstanceCtx.node_ok hnode
  have hpassed : Lasts r _ := .passMerges r env.now source.activityDefinitionId round trace.mergesPassed
  refine h.attended (hpassed.attended hr) ?_ htakes
  rw [hpassed.snapshot, hsnapshot, hid]
  exact hfind

/-- The node that a landing outcome names is the one the snapshot has under that id. -/
private theorem landed {target : String} {node : WorkflowNode} {P : WorkflowNode → Prop}
    (hnode : ctx.node target = .ok node) (h : ∃ node', findNode ctx.snapshot.nodes target = some node' ∧ P node') :
    P node := by
  obtain ⟨node', hfind, hp⟩ := h
  rw [(InstanceCtx.node_ok hnode).1] at hfind
  cases hfind
  exact hp

theorem Applied.attended {outcome : AdvanceOutcome} {trace : ResolveTrace}
    (h : Applied env ctx source round svc outcome trace r r') (hr : r.Attended)
    (hsnapshot : r.snapshot = ctx.snapshot) (hlands : outcome.Lands ctx.snapshot.nodes) : r'.Attended := by
  induction h with
  | @schedule target role trace r r₁ node row hnode hjoin hsched =>
    have htakes := (landed hnode hlands).resolve_right fun hkind => hkind.elim hjoin hsched.notSub
    exact (Lasts.pointTo r₁ row.id).attended (hsched.attended_landed hr hsnapshot hnode htakes)
  | @fan targets trace r _ _ _ hbranches =>
    have hfan : Lasts r (fanOutRows env source round trace targets r) := lasts_fanOutRows ..
    exact hbranches.attended (hfan.attended hr) (hfan.snapshot.trans hsnapshot) hlands
  | wait hreach => exact (Lasts.updateInstance ..).attended (hreach.lasts.attended hr)
  | @fire _ _ r r₁ _ join exclude arrived expected hreach _ _ _ ih =>
    have hfire : Lasts r (r₁.fire env.now join round arrived expected exclude) := hreach.lasts.trans (.fire ..)
    exact ih (hfire.attended hr) (hfire.snapshot.trans hsnapshot) (approved_lands ..)
  | @complete result trace r r₁ os _ hr₁ _ =>
    subst hr₁
    exact ((((Lasts.passMerges ..).trans (.updateInstance ..)).trans (.log ..)).trans (.outbox _ os)).attended hr
  | @rework target role trace r r₁ node row _ _ hnode hsched =>
    have htakes := (landed hnode hlands).resolve_right hsched.notSub
    exact ((Lasts.updateInstance ..).trans (.log ..)).attended (hsched.attended_landed hr hsnapshot hnode htakes)
  | error => exact (((Lasts.passMerges ..).trans (.errorOut _)).trans (.log ..)).attended hr

/-- The context in which the outcome of a signal to the node is decided. -/
def InstanceRows.contextAfter (r : InstanceRows) (node : WorkflowNode) (patch : Option Json) : Option Json :=
  match patch with
  | some (.obj fields) =>
    match filterPatch node.id (.obj fields) node.contextWrites with
    | .ok filtered =>
      if node.contextWrites = [] then r.inst.context
      else some (Json.concat (r.inst.context.getD (.obj [])) (.obj filtered))
    | .error _ => r.inst.context
  | _ => r.inst.context

private theorem ContextWritten.context {node : WorkflowNode} {n : Int} {patch : Option Json} {ctx' : InstanceCtx}
    (h : ContextWritten env node n patch r.ctx r ctx' r') :
    ctx'.context = r.contextAfter node patch ∧ Lasts r r' := by
  cases h with
  | none hnone =>
    refine ⟨?_, .refl r⟩
    unfold InstanceRows.contextAfter
    split
    · split
      · rw [if_pos hnone]
        rfl
      · rfl
    · rfl
  | merged hsome hpatch hfilter hmerged =>
    subst hpatch hmerged
    refine ⟨?_, (Lasts.updateInstance ..).trans (.log ..)⟩
    simp [InstanceRows.contextAfter, hfilter, hsome]

/-- A RETURNED signal does not hand the instance back to a join. -/
def WorkflowService.HandsBackToActivity (svc : WorkflowService) (r : InstanceRows) (cmd : SignalCommand) : Prop :=
  cmd.signal = .returned → ∀ a ∈ r.activities, a.status = .active → (∀ id, cmd.activityId = some id → a.id = id) →
    ∀ node, findNode r.snapshot.nodes a.activityDefinitionId = some node → ∀ target role join,
      (decideAdvance svc.cel r.snapshot.nodes r.snapshot.transitions (r.contextAfter node cmd.contextPatch)
        a.activityDefinitionId .returned).1 = .rework target role →
      findNode r.snapshot.nodes target = some join → join.kind ≠ .parallelJoin

/-- The timer is no timeout of an ended instance whose active activity has no other way on. -/
def InstanceRows.TimesOutAwake (r : InstanceRows) (id : Uuid) : Prop :=
  r.inst.status.isTerminal = true → ∀ t ∈ r.timers, t.id = id → t.timerKind = timerKindI16 "timeout" →
    t.status = .pending → ∀ a ∈ r.activities, a.id = t.activityInstanceId → a.status = .active →
      ∀ node, findNode r.snapshot.nodes a.activityDefinitionId = some node →
        ¬ node.OnlyTimesOut r.snapshot.transitions

/-- A call that neither hands the instance back to a join nor spends a timeout that is still needed.
Timer ids are a primary key. -/
def WorkflowService.Undisturbed (svc : WorkflowService) (r : InstanceRows) (call : Call) (_ : InstanceRows) : Prop :=
  (r.timers.map TimerRow.id).Nodup ∧
    match call with
    | .signal cmd => svc.HandsBackToActivity r cmd
    | .fireTimer id => r.TimesOutAwake id
    | _ => True

/-- The entry activity is on an approval. -/
private theorem entry_takesSignal {cel : Cel} {nodes : List WorkflowNode} {transitions : List WorkflowTransition}
    (hpublished : Published cel nodes transitions) {id : String} {role : Option String}
    (hstart : decideStart nodes = some (id, role)) {node : WorkflowNode} (hfind : findNode nodes id = some node) :
    node.TakesSignal := by
  obtain ⟨entry, hentry, heq⟩ := Option.map_eq_some_iff.1 hstart
  obtain ⟨rfl, -⟩ := Prod.mk.inj heq
  rw [hpublished.findNode (List.mem_of_find?_eq_some hentry)] at hfind
  cases hfind
  have hkind : node.kind = .approval := by simpa using List.find?_some hentry
  rw [WorkflowNode.TakesSignal, hkind]
  rfl

/-- A fired timer that is not the timeout an active activity still needs. -/
private theorem attended_fireTimer (hkeys : (r.timers.map TimerRow.id).Nodup) {t : TimerRow} (ht : t ∈ r.timers)
    (hr : r.Attended) (h : ∀ a ∈ r.activities, a.status = .active → a.id = t.activityInstanceId →
      t.timerKind = timerKindI16 "timeout" → t.status = .pending →
      ∀ node, findNode r.snapshot.nodes a.activityDefinitionId = some node →
        ¬ node.OnlyTimesOut r.snapshot.transitions) : (r.fireTimer t.id).Attended where
  nodes := hr.nodes
  armed := by
    intro a ha hactive node hfind htimes hsecs
    obtain ⟨t', ht', hown, hkind, hpending⟩ := hr.armed a ha hactive node hfind htimes hsecs
    have hne : t'.id ≠ t.id := by
      intro heq
      obtain rfl : t' = t := List.inj_on_of_nodup_map hkeys ht' ht heq
      exact h a ha hactive hown.symm hkind hpending node hfind htimes
    exact ⟨t', List.mem_map.2 ⟨t', ht', by simp [hne]⟩, hown, hkind, hpending⟩

private theorem attended_timerFired (hkeys : (r.timers.map TimerRow.id).Nodup) {t : TimerRow} (ht : t ∈ r.timers)
    (hr : r.Attended) {kind : String} (hkind : timerKindStr t.timerKind = kind) (hne : kind ≠ "timeout") (now : Time)
    (id : Uuid) (nodeId : String) : (r.timerFired now t id nodeId).Attended := by
  refine (Lasts.log ..).attended (attended_fireTimer hkeys ht hr fun a _ _ _ htimeout => ?_)
  rw [htimeout] at hkind
  exact absurd hkind.symm hne

/-- A timeout takes its activity with it. -/
private theorem lasts_timedOut (hkeys : (r.timers.map TimerRow.id).Nodup) {t : TimerRow} (ht : t ∈ r.timers)
    {id : Uuid} (hown : t.activityInstanceId = id) (now : Time) (nodeId : String) :
    Lasts r ((r.timerFired now t id nodeId).timeOutActivity now id) := by
  refine .skipped rfl rfl fun a hmiss hactive => ?_
  rintro ⟨t', ht', hown', hkind, hpending⟩
  have hother : t'.activityInstanceId ≠ id := fun heq =>
    hmiss ((ActivityRow.isActive_iff ..).2 ⟨hown'.symm.trans heq, hactive⟩)
  have hne : t'.id ≠ t.id := fun heq =>
    hother (by rw [List.inj_on_of_nodup_map hkeys ht' ht heq, hown])
  refine ⟨t', List.mem_map.2 ⟨t', List.mem_map.2 ⟨t', ht', by simp [hne]⟩, by simp [hother]⟩, hown', hkind, hpending⟩

theorem Effect.attended {call : Call} (h : Effect svc env call r r') (w : WellFormed svc r) (hr : r.Attended)
    (hok : svc.Undisturbed r call r') : r'.Attended := by
  obtain ⟨hkeys, hok⟩ := hok
  cases h with
  | nothing => exact hr
  | assignee =>
    refine (Lasts.trans (.updateActivities _ _ _ ?_ ?_ ?_) (.log ..)).attended hr
    · exact fun _ => rfl
    · exact fun _ => rfl
    · exact fun _ => id
  | @advance cmd _ r₁ _ row node ctx _ _ _ hrow hactive hnode _ hctx happly hnamed =>
    obtain ⟨hcontext, hwritten⟩ := hctx.context
    have hbefore := hwritten.trans (.resolve r₁ env.now cmd (row.intoModel r.inst.id))
    have hsnapshot : ctx.snapshot = r.snapshot := hctx.snapshot
    refine happly.attended (hbefore.attended hr) (hbefore.snapshot.trans hsnapshot.symm) ?_
    refine decideAdvance_lands fun target role join hrework hjoin => ?_
    rw [hsnapshot, hcontext] at hrework
    rw [hsnapshot] at hjoin
    have hsignal := signal_of_rework hrework
    rw [hsignal] at hrework
    exact hok hsignal row hrow hactive hnamed node (InstanceCtx.node_ok hnode).1 target role join hrework hjoin
  | @reenter _ key _ r₁ _ _ node row _ _ _ _ hstart hnode hsched =>
    have hbefore : Lasts r (r.reactivate env.now (r.maxRound + 1) key) := (Lasts.updateInstance ..).trans (.log ..)
    obtain ⟨hfind, hid⟩ := InstanceCtx.node_ok hnode
    have htakes := entry_takesSignal (published_of_valid w.valid) hstart hfind
    refine (Lasts.pointTo r₁ row.id).attended (hsched.attended (hbefore.attended hr) ?_ htakes)
    rw [hbefore.snapshot, hid]
    exact hfind
  | @timerGone t _ ht hdue =>
    refine attended_fireTimer hkeys ht hr fun a ha hactive hid hkind hpending node hfind => ?_
    rcases hdue with hterm | hdue | ⟨row, hrow, hrowid, hinactive⟩
    · exact hok hterm t ht rfl hkind hpending a ha hid hactive node hfind
    · exact absurd hpending hdue
    · obtain rfl : a = row := w.eq_of_id ha hrow (hid.trans hrowid.symm)
      exact absurd hactive hinactive
  | reminder ht _ _ _ _ hkind =>
    exact (Lasts.enqueueOutbox ..).attended (attended_timerFired hkeys ht hr hkind (by decide) ..)
  | escalationGone ht _ _ _ _ hkind => exact attended_timerFired hkeys ht hr hkind (by decide) ..
  | escalated ht _ _ _ _ hkind =>
    refine (Lasts.enqueueOutbox ..).attended (Lasts.attended (Lasts.trans (.updateActivities _ _ _ ?_ ?_ ?_) (.log ..))
      (attended_timerFired hkeys ht hr hkind (by decide) ..))
    · exact fun _ => rfl
    · exact fun _ => rfl
    · exact fun _ => id
  | @timedOut t _ _ row node ht _ hown _ _ _ _ happly =>
    have hbefore := lasts_timedOut hkeys ht hown env.now node.id
    exact happly.attended (hbefore.attended hr) hbefore.snapshot (decideEventWaitTimeout_lands ..)
  | @delivered _ _ row _ _ _ _ happly =>
    have hbefore : Lasts r (r.deliver env.now row.id) := .completeActivity ..
    refine happly.attended (hbefore.attended hr) hbefore.snapshot (decideAdvance_lands fun target role join hrework _ => ?_)
    cases signal_of_rework hrework
  | callback => exact (Lasts.updateInstance ..).attended hr
  | deadLetter => exact (Lasts.log ..).attended hr

theorem Started.attended {supply : Supply} {cmd : StartCommand} (h : Started svc env supply cmd r) : r.Attended := by
  obtain ⟨entryId, entryRole, node, row, r₁, hstart, hfind, hsched, rfl⟩ := h.rows
  have hempty : ((insertedRows supply cmd).log env.now .started (startedPayload cmd (svc.definitionHash cmd.snapshot))
      none).Attended := ⟨fun _ ha => (List.not_mem_nil ha).elim, fun _ ha => (List.not_mem_nil ha).elim⟩
  have hid : node.id = entryId := by simpa using List.find?_some hfind
  refine (Lasts.pointTo ..).attended (hsched.attended hempty ?_ ?_)
  · rw [hid]
    exact hfind
  · exact entry_takesSignal (published_of_valid h.valid) hstart hfind

/-- The waits that nothing but their timeout leads on from have one. -/
def DefinitionSnapshot.WaitsEnd (snapshot : DefinitionSnapshot) : Prop :=
  ∀ node ∈ snapshot.nodes, node.OnlyTimesOut snapshot.transitions →
    (node.eventWait.any fun w => w.2.1.isSome) = true

private theorem findNextTransition_isSome {transitions : List WorkflowTransition} {id : String} {signal : SignalType}
    (h : hasOutgoing transitions id signal = true) : (findNextTransition transitions id signal).isSome = true := by
  unfold findNextTransition
  rw [List.find?_isSome]
  exact List.any_eq_true.1 h

/-- On an event wait without a transition, only a pending timeout leads on. -/
theorem InstanceRows.Resolvable.pending {a : ActivityRow} {node : WorkflowNode} (h : r.Resolvable a node)
    (htimes : node.OnlyTimesOut r.snapshot.transitions) : r.IsPending a.id (timerKindI16 "timeout") := by
  obtain ⟨hkind, hedge⟩ := htimes
  rcases h with ⟨signal, eventType, hcheck, hleads⟩ | ⟨hpending, -⟩ | ⟨hnotification, -⟩
  · cases signal with
    | eventReceived =>
      rcases hleads with hleads | hleads | hleads
      · rw [findNextTransition, List.find?_isSome] at hleads
        exact absurd (List.any_eq_true.2 hleads) (Bool.eq_false_iff.1 hedge)
      · cases hleads
      · cases hleads
    | _ => simp [checkSignalAgainstNode, hkind] at hcheck
  · exact hpending
  · rw [hkind] at hnotification
    cases hnotification

private theorem resolvable_of_wait {cel : Cel} (hpublished : Published cel r.snapshot.nodes r.snapshot.transitions)
    (hwaits : r.snapshot.WaitsEnd) (hr : r.Attended) {a : ActivityRow} (ha : a ∈ r.activities)
    (hactive : a.status = .active) {node : WorkflowNode}
    (hfind : findNode r.snapshot.nodes a.activityDefinitionId = some node) (hkind : node.kind = .eventWait) :
    r.Resolvable a node := by
  have hmem := List.mem_of_find?_eq_some hfind
  obtain ⟨⟨eventType, secs, target⟩, hwait⟩ := Option.isSome_iff_exists.1 (WorkflowNode.isSome_eventWait_iff.2 hkind)
  by_cases hedge : hasOutgoing r.snapshot.transitions node.id .eventReceived = true
  · refine .inl ⟨.eventReceived, some eventType, ?_, .inl (findNextTransition_isSome hedge)⟩
    simp [checkSignalAgainstNode, hwait]
  · have htimes : node.OnlyTimesOut r.snapshot.transitions := ⟨hkind, Bool.eq_false_iff.2 hedge⟩
    have hchecked := hpublished.node node hmem
    unfold validateNode at hchecked
    obtain ⟨_, -, hchecked⟩ := bind_ok hchecked
    simp only [hkind, validateEventWait, hwait] at hchecked
    obtain ⟨_, -, hchecked⟩ := bind_ok hchecked
    obtain ⟨_, -, hchecked⟩ := bind_ok hchecked
    have htarget : target.isNone = false := by simpa [htimes.2] using reject_ok hchecked
    cases target with
    | none => cases htarget
    | some target =>
      exact .inr (.inl ⟨hr.armed a ha hactive node hfind htimes (hwaits node hmem htimes), _, _, _, hwait⟩)

private theorem hasOutgoing_completed {cel : Cel} {nodes : List WorkflowNode} {transitions : List WorkflowTransition}
    (hpublished : Published cel nodes transitions) {node : WorkflowNode} (hmem : node ∈ nodes)
    (hkind : node.kind = .notification ∨ node.kind = .assignment) :
    hasOutgoing transitions node.id .completed = true := by
  have hchecked := hpublished.node node hmem
  unfold validateNode at hchecked
  obtain ⟨_, -, hchecked⟩ := bind_ok hchecked
  rcases hkind with hkind | hkind
  · simp only [hkind, validateNotification] at hchecked
    split at hchecked
    · cases hchecked
    · obtain ⟨_, -, hchecked⟩ := bind_ok hchecked
      obtain ⟨_, -, hchecked⟩ := bind_ok hchecked
      simpa using reject_ok hchecked
  · simp only [hkind, validateAssignment] at hchecked
    split at hchecked
    · cases hchecked
    · obtain ⟨_, -, hchecked⟩ := bind_ok hchecked
      simpa using reject_ok hchecked

theorem InstanceRows.Attended.resolvable {cel : Cel} (hr : r.Attended)
    (hpublished : Published cel r.snapshot.nodes r.snapshot.transitions) (hwaits : r.snapshot.WaitsEnd)
    {a : ActivityRow} (ha : a ∈ r.activities) (hactive : a.status = .active) :
    ∃ node, findNode r.snapshot.nodes a.activityDefinitionId = some node ∧ r.Resolvable a node := by
  obtain ⟨node, hfind, htakes⟩ := hr.nodes a ha
  have hmem := List.mem_of_find?_eq_some hfind
  refine ⟨node, hfind, ?_⟩
  unfold WorkflowNode.TakesSignal at htakes
  cases hkind : node.kind with
  | approval => exact .inl ⟨.rejected, none, by simp [checkSignalAgainstNode, hkind], .inr (.inl rfl)⟩
  | notification =>
    have hedge := hasOutgoing_completed hpublished hmem (.inl hkind)
    exact .inl ⟨.completed, none, by simp [checkSignalAgainstNode, hkind], .inl (findNextTransition_isSome hedge)⟩
  | assignment =>
    have hedge := hasOutgoing_completed hpublished hmem (.inr hkind)
    exact .inl ⟨.completed, none, by simp [checkSignalAgainstNode, hkind], .inl (findNextTransition_isSome hedge)⟩
  | eventWait => exact resolvable_of_wait hpublished hwaits hr ha hactive hfind hkind
  | _ => simp [hkind, completionSignal] at htakes

end

section
variable {svc : WorkflowService} {store : Store} {r : InstanceRows}

/-- Every active activity of an instance can be resolved, if its definition gives the waits that only
their timeout ends one, and no call disturbs it. -/
theorem active_resolvable {id : Uuid} (h : (engine svc).ReachableIf (OnInstance id svc.Undisturbed) store)
    (hr : r ∈ store) (hid : r.inst.id = id) (hwaits : r.snapshot.WaitsEnd) :
    ∀ a ∈ r.activities, a.status = .active →
      ∃ node, findNode r.snapshot.nodes a.activityDefinitionId = some node ∧ r.Resolvable a node := by
  have hattended : r.Attended := instance_invariant (P := InstanceRows.Attended)
    (fun _ _ _ _ hstarted => hstarted.attended) (fun _ _ _ _ w hP heffect hok => heffect.attended w hP hok) h r hr hid
  have w := (wellFormed_of_reachable h).rows r hr
  exact fun a ha hactive => hattended.resolvable (published_of_valid w.valid) hwaits ha hactive

end
/-- An approval, then a wait for a payment that nothing but its timeout leads on from. -/
def waited (hash : String) (secs : Option Int) : Store :=
  played (Sample.service hash) 9
    [Sample.start (Sample.definition [Sample.approval "a", Sample.node "w" (.eventWait "paid" secs (some "end"))]
      [Sample.approved "a" "w"]) none, Sample.approve (Sample.uuid 0 1)]

/-- Without `timeout_seconds` no timer is ever scheduled for the wait, which the gate lets through. -/
theorem unbounded_wait_stuck :
    let svc := Sample.service "cd65a6430ce0ed7e40a26458438812a9ac697d8864b4d3eb921b5b4e367aa3fa"
    let store := waited "cd65a6430ce0ed7e40a26458438812a9ac697d8864b4d3eb921b5b4e367aa3fa" none
    (engine svc).Reachable store ∧ ∃ r ∈ store, (∀ n ∈ r.snapshot.nodes, n.kind ≠ .subWorkflow) ∧
      r.inst.status.isTerminal = false ∧ ∃ a ∈ r.activities, a.status = .active ∧
        ∀ node, findNode r.snapshot.nodes a.activityDefinitionId = some node → ¬ r.Resolvable a node := by
  intro svc store
  refine ⟨reachable_played .., ?_⟩
  have hstuck : ∃ r ∈ store, (∀ n ∈ r.snapshot.nodes, n.kind ≠ .subWorkflow) ∧ r.inst.status.isTerminal = false ∧
      r.timers.isEmpty = true ∧ ∃ a ∈ r.activities, a.status = .active ∧
        ((findNode r.snapshot.nodes a.activityDefinitionId).all fun node =>
          node.kind == .eventWait && !hasOutgoing r.snapshot.transitions node.id .eventReceived) = true := by decide
  obtain ⟨r, hr, hkinds, hterm, hempty, a, ha, hactive, hnode⟩ := hstuck
  refine ⟨r, hr, hkinds, hterm, a, ha, hactive, fun node hfind hresolvable => ?_⟩
  rw [hfind] at hnode
  simp only [Option.all_some, Bool.and_eq_true, beq_iff_eq, Bool.not_eq_true'] at hnode
  obtain ⟨t, ht, -⟩ := hresolvable.pending hnode
  rw [List.isEmpty_iff.1 hempty] at ht
  cases ht

/-- A signal that hands nothing back. -/
def Call.handsOn : Call → Bool
  | .signal cmd => cmd.signal != .returned
  | _ => false

private theorem undisturbed_of_handsOn {svc : WorkflowService} {r r' : InstanceRows} {call : Call}
    (hkeys : (r.timers.map TimerRow.id).Nodup) (h : call.handsOn = true) : svc.Undisturbed r call r' := by
  refine ⟨hkeys, ?_⟩
  cases call with
  | signal cmd => exact fun hreturned => absurd hreturned (by simpa [Call.handsOn] using h)
  | _ => cases h

theorem active_resolvable_waiting :
    let svc := Sample.service "38accfbef26783b2e283682631ddfc69d14eedc330afb9040043e9e60d853a9c"
    let store := waited "38accfbef26783b2e283682631ddfc69d14eedc330afb9040043e9e60d853a9c" (some 60)
    (engine svc).Reachable store ∧ (store.map fun r => r.activities.map ActivityRow.status) = [[.completed, .active]] ∧
      ∀ r ∈ store, r.inst.id = Sample.uuid 0 0 → ∀ a ∈ r.activities, a.status = .active →
        ∃ node, findNode r.snapshot.nodes a.activityDefinitionId = some node ∧ r.Resolvable a node := by
  intro svc store
  have hrun : (engine svc).ReachableIf (OnInstance (Sample.uuid 0 0) fun r call _ =>
      (r.timers.map TimerRow.id).Nodup ∧ call.handsOn = true) store := reachableIf_played 9 _ (by decide)
  have hquiet : (engine svc).ReachableIf (OnInstance (Sample.uuid 0 0) svc.Undisturbed) store := by
    refine hrun.mono fun s op hop => ?_
    cases op with
    | start => trivial
    | call others r call r' => exact fun hid => undisturbed_of_handsOn (hop hid).1 (hop hid).2
  have hwaits : ∀ r ∈ store, r.snapshot.WaitsEnd := by
    have hall : ∀ r ∈ store, ∀ node ∈ r.snapshot.nodes, node.kind = .eventWait →
        (node.eventWait.any fun w => w.2.1.isSome) = true := by decide
    exact fun r hr node hnode htimes => hall r hr node hnode htimes.1
  exact ⟨hquiet.reachable, by decide, fun r hr hid => active_resolvable hquiet hr hid (hwaits r hr)⟩

end Fusions.Hetuflow
