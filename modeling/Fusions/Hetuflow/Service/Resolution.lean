import Fusions.Hetuflow.Service.Log

/-! The calls that resolve an activity: what they leave before they apply its outcome, and what every
other call leaves. -/
namespace Fusions.Hetuflow
open Fusions.Library

/-- The activity an event resolves, by completing it or by skipping it for its own timeout. -/
def EventRow.resolves (e : EventRow) : Option Uuid :=
  if e.eventType = .activityCompleted ∨ e.eventType = .activitySkipped then e.str "activity_id" else none

/-- The activity that the events added since `r` resolve first. -/
def InstanceRows.resolved (r r' : InstanceRows) : Option Uuid :=
  (r'.events.drop r.events.length).findSome? EventRow.resolves

def Call.isSignal : Call → Bool
  | .signal _ => true
  | _ => false

/-- The events of a call that resolves an activity, up to its outcome. -/
def EventType.isResolving : EventType → Bool
  | .signalReceived | .contextUpdated | .activityCompleted | .reworkResumed | .timerFired | .activitySkipped => true
  | _ => false

/-- The events of a call that neither resolves nor schedules an activity. -/
def EventType.isQuiet : EventType → Bool
  | .signalReceived | .timerFired | .approvalEscalated | .activityFailed => true
  | _ => false

/-- The events that resolve no activity. -/
def EventType.isSilent (t : EventType) : Bool := t != .activityCompleted && t != .activitySkipped

/-- The events of an applied outcome. -/
def EventType.isOutcome : EventType → Bool
  | .mergePassed | .branchReachedJoin | .forEachFannedOut | .parallelSplitScheduled | .parallelJoinSatisfied
  | .activitySkipped | .activityScheduled | .completed | .returnedToRework | .errored => true
  | _ => false

/-- The instance and its activities keep their statuses, and the log records no progress. -/
structure Quiet (r r' : InstanceRows) : Prop where
  status : r'.inst.status = r.inst.status
  activities : r'.activities.map (fun a => (a.id, a.status)) = r.activities.map fun a => (a.id, a.status)
  adds : Adds EventType.isQuiet r r'

/-- A resubmit has brought a returned instance back: one new activity on the entry node. -/
structure Reentered (r r' : InstanceRows) : Prop where
  before : r.inst.status = .completed
  after : r'.inst.status = .active
  entry : ∃ entryId entryRole row, decideStart r.snapshot.nodes = some (entryId, entryRole) ∧
    r'.activities = r.activities ++ [row] ∧ row.activityDefinitionId = entryId ∧ row.status = .active ∧
    row.round = r.maxRound + 1

/-- A signal brings a returned-waiting instance back; nothing else does. -/
inductive Resumed (call : Call) (r r₀ : InstanceRows) : Prop where
  | resumed : call.isSignal = true → r.inst.status = .returnedWaiting → r₀.inst.status = .active →
      (∃ e, r₀.events.getLast? = some e ∧ e.eventType = .reworkResumed) → Resumed call r r₀
  | same : call.isSignal = false ∨ r.inst.status ≠ .returnedWaiting → r₀.inst.status = r.inst.status →
      Adds (· != .reworkResumed) r r₀ → Resumed call r r₀

/-- The call resolves an active activity, and `r₀` is what it leaves before it applies the outcome. -/
structure Resolves (svc : WorkflowService) (env : Env) (call : Call) (r : InstanceRows) (row : ActivityRow)
    (r₀ r' : InstanceRows) : Prop where
  row_mem : row ∈ r.activities
  row_active : row.status = .active
  live : r.inst.status.isTerminal = false
  keeps : Keeps svc r r₀
  adds : Adds EventType.isResolving r r₀
  length : r₀.activities.length = r.activities.length
  others : ∀ a ∈ r₀.activities, a.status = .active → a ∈ r.activities ∧ a.id ≠ row.id
  resolved : r.resolved r₀ = some row.id
  resumes : Resumed call r r₀
  applied : ∃ ctx outcome trace, ctx.snapshot = r₀.snapshot ∧
    Decided svc.cel ctx.snapshot.nodes ctx.context outcome trace ∧
    Applied env ctx (row.intoModel r.inst.id) row.round svc outcome trace r₀ r'

theorem Adds.mono {p q : EventType → Bool} {r r' : InstanceRows} (h : Adds p r r')
    (hpq : ∀ t, p t = true → q t = true) : Adds q r r' := by
  obtain ⟨new, hnew, hall⟩ := h
  exact ⟨new, hnew, fun e he => hpq _ (hall e he)⟩

theorem Adds.grows {p : EventType → Bool} {r r' : InstanceRows} (h : Adds p r r') :
    ∃ new, r'.events = r.events ++ new := by
  obtain ⟨new, hnew, -⟩ := h
  exact ⟨new, hnew⟩

section
variable {r r₁ r' : InstanceRows} {new : List EventRow}

theorem resolved_of_events (h : r'.events = r.events ++ new) : r.resolved r' = new.findSome? EventRow.resolves := by
  rw [InstanceRows.resolved, h, List.drop_left]

theorem EventRow.resolves_of_ne {e : EventRow} (hcompleted : e.eventType ≠ .activityCompleted)
    (hskipped : e.eventType ≠ .activitySkipped) : e.resolves = none := by
  simp [resolves, hcompleted, hskipped]

theorem Quiet.resolved (h : Quiet r r') : r.resolved r' = none := by
  obtain ⟨new, hnew, hall⟩ := h.adds
  rw [resolved_of_events hnew, List.findSome?_eq_none_iff]
  intro e he
  have hquiet := hall e he
  refine EventRow.resolves_of_ne ?_ ?_ <;>
  · intro ht
    simp [ht, EventType.isQuiet] at hquiet

/-- What has been resolved first stays so. -/
theorem resolved_append {id : Uuid} (h : r.resolved r₁ = some id) (hgrows : ∃ new, r₁.events = r.events ++ new)
    (hnew : ∃ new, r'.events = r₁.events ++ new) : r.resolved r' = some id := by
  obtain ⟨mid, hmid⟩ := hgrows
  obtain ⟨new, hnew⟩ := hnew
  rw [resolved_of_events hmid] at h
  rw [hmid, List.append_assoc] at hnew
  rw [resolved_of_events hnew, List.findSome?_append, h]
  rfl

/-- The first event that resolves an activity, after others that resolve none. -/
private theorem resolved_after {id : Uuid} {e : EventRow} (h : Adds EventType.isSilent r r₁)
    (hnew : r'.events = r₁.events ++ [e]) (he : e.resolves = some id) :
    r.resolved r' = some id ∧ ∃ new, r'.events = r.events ++ new := by
  obtain ⟨mid, hmid, hall⟩ := h
  rw [hmid, List.append_assoc] at hnew
  refine ⟨?_, _, hnew⟩
  have hnone : mid.findSome? EventRow.resolves = none := List.findSome?_eq_none_iff.2 fun x hx => by
    have hx := hall x hx
    simp only [EventType.isSilent, Bool.and_eq_true, bne_iff_ne, ne_eq] at hx
    exact EventRow.resolves_of_ne hx.1 hx.2
  rw [resolved_of_events hnew, List.findSome?_append, hnone, List.findSome?_singleton, he]
  rfl

private theorem active_of_settled {id : Uuid} {f : ActivityRow → ActivityRow} (hf : ∀ a, (f a).status ≠ .active)
    {a : ActivityRow} (ha : a ∈ (r.updateActivities (ActivityRow.isActive id) f).activities)
    (hactive : a.status = .active) : a ∈ r.activities ∧ a.id ≠ id := by
  obtain ⟨b, hb, rfl⟩ := List.mem_map.1 ha
  by_cases hp : b.isActive id = true
  · rw [if_pos hp] at hactive
    exact absurd hactive (hf b)
  · rw [if_neg hp] at hactive ⊢
    exact ⟨hb, fun hid => hp ((ActivityRow.isActive_iff _ _).2 ⟨hid, hactive⟩)⟩

/-- A change of columns that keep id and status. -/
private theorem statuses_of_update {p : ActivityRow → Bool} {f : ActivityRow → ActivityRow}
    (hf : ∀ a, (f a).id = a.id ∧ (f a).status = a.status) :
    (r.updateActivities p f).activities.map (fun a => (a.id, a.status)) =
      r.activities.map fun a => (a.id, a.status) :=
  map_updateWhere (fun a => Prod.ext (hf a).1 (hf a).2) r.activities

theorem completeActivity_events (r : InstanceRows) (now : Time) (id : Uuid) (result : Option String) (actor : Int)
    (notes : Option String) (payload : Json) :
    (r.completeActivity now id result actor notes payload).events =
      r.events ++ [⟨r.nextSeq, .activityCompleted, payload, none, now⟩] := rfl

theorem resolves_completed (seq : Int) (now : Time) (id : Uuid) (result : Option String) :
    EventRow.resolves ⟨seq, .activityCompleted, activityCompletedPayload id result, none, now⟩ = some id := rfl

theorem resolves_timedOut (seq : Int) (now : Time) (id : Uuid) :
    EventRow.resolves ⟨seq, .activitySkipped, timedOutPayload id, none, now⟩ = some id := rfl

theorem resolves_delivered (seq : Int) (now : Time) (id : Uuid) :
    EventRow.resolves ⟨seq, .activityCompleted, deliveredPayload id, none, now⟩ = some id := rfl

end

section
variable {svc : WorkflowService} {env : Env} {ctx : InstanceCtx} {r r' : InstanceRows}

private theorem ContextWritten.quiet {node : WorkflowNode} {round : Int} {patch : Option Json} {ctx' : InstanceCtx}
    (h : ContextWritten env node round patch ctx r ctx' r') :
    r'.activities = r.activities ∧ r'.inst.status = r.inst.status ∧ Adds (· == .contextUpdated) r r' := by
  cases h with
  | none => exact ⟨rfl, rfl, .same rfl⟩
  | merged => exact ⟨rfl, rfl, .one rfl rfl⟩

/-- What a signal leaves before it applies its outcome. -/
private theorem resumed_of_resolve {r₁ : InstanceRows} (now : Time) (cmd : SignalCommand) (a : ActivityInstance)
    (hs : r₁.inst.status = r.inst.status) (hadds : Adds (· == .contextUpdated) r r₁) :
    Resumed (.signal cmd) r (r₁.resolve now cmd a) ∧ r.resolved (r₁.resolve now cmd a) = some a.id ∧
      Adds EventType.isResolving r (r₁.resolve now cmd a) := by
  obtain ⟨new, hnew, hall⟩ := hadds
  have htypes : Adds EventType.isResolving r r₁ := ⟨new, hnew, fun e he => by
    rw [beq_iff_eq.1 (hall e he)]
    rfl⟩
  have hsilent : Adds EventType.isSilent r r₁ := ⟨new, hnew, fun e he => by
    rw [beq_iff_eq.1 (hall e he)]
    rfl⟩
  refine ⟨?_, ?_, htypes.trans (.resolve _ _ _ _ rfl rfl rfl)⟩
  · by_cases hwaiting : r.inst.status = .returnedWaiting
    · rw [InstanceRows.resolve, InstanceRows.resume, if_pos (by rw [← hwaiting, ← hs]; rfl)]
      exact .resumed rfl hwaiting rfl ⟨_, List.getLast?_concat, rfl⟩
    · rw [InstanceRows.resolve, InstanceRows.resume, if_neg (by rw [← hs] at hwaiting; exact hwaiting)]
      refine .same (.inr hwaiting) hs ?_
      have hbefore : Adds (· != .reworkResumed) r r₁ := ⟨new, hnew, fun e he => by
        rw [beq_iff_eq.1 (hall e he)]
        rfl⟩
      exact (hbefore.trans (.one rfl rfl)).trans (.completeActivity _ now _ _ _ _ _ rfl)
  · have hlogged : Adds EventType.isSilent r₁ (r₁.log now .signalReceived (reviewPayload cmd.signal a.id
        cmd.actorUserId cmd.reviewNotes) (some cmd.idempotencyKey)) := .one rfl rfl
    obtain ⟨hcompleted, hgrows⟩ := resolved_after (hsilent.trans hlogged) (completeActivity_events ..)
      (resolves_completed _ now a.id (signalResult cmd.signal))
    have hafter : Adds EventType.isResolving _ (r₁.resolve now cmd a) := .resume _ now a rfl
    exact resolved_append hcompleted hgrows hafter.grows

theorem pointTo_status (r : InstanceRows) (id : Uuid) : (r.pointTo id).inst.status = r.inst.status := by
  unfold InstanceRows.pointTo
  split <;> rfl

theorem fire_length (r : InstanceRows) (now : Time) (join : WorkflowNode) (round arrived expected : Int)
    (exclude : Option Uuid) :
    (r.fire now join round arrived expected exclude).activities.length = r.activities.length := by
  rw [fire_activities]
  split
  · exact List.length_map ..
  · rfl

theorem Scheduled.length {tenantId round : Int} {node : WorkflowNode} {role : Option String}
    {fanout : Option FanoutMark} {row : ActivityRow} (h : Scheduled env tenantId node role round fanout r row r') :
    r'.activities.length = r.activities.length + 1 := by
  rw [h.activities, List.length_append, List.length_singleton]

theorem Branches.inst {round : Int} {via : String} {targets : List ParallelTarget} {rows : List ActivityRow}
    (h : Branches env ctx round via targets r rows r') : r'.inst = r.inst := by
  induction h with
  | nil => rfl
  | cons _ hsched _ ih => exact ih.trans hsched.inst

theorem Applied.adds {source : ActivityInstance} {round : Int} {outcome : AdvanceOutcome} {trace : ResolveTrace}
    (h : Applied env ctx source round svc outcome trace r r') : Adds EventType.isOutcome r r' := by
  have hmerges : ∀ (r : InstanceRows) (t : ResolveTrace), Adds EventType.isOutcome r
      (r.passMerges env.now source.activityDefinitionId round t.mergesPassed) := fun r t => .passMerges r _ _ _ _ rfl
  induction h with
  | @schedule _ _ trace r _ _ _ _ _ hsched =>
    exact ((hmerges r trace).trans (hsched.adds rfl)).trans (.same (pointTo_events ..))
  | @fan targets trace r _ _ _ hbranches =>
    refine ((hmerges r trace).trans (.one rfl ?_)).trans (hbranches.adds rfl)
    cases htrace : trace.forEachFanOut <;> simp [fanOutMarker, htrace, EventType.isOutcome]
  | wait hreach _ _ => exact (hreach.adds rfl rfl rfl).trans (.same rfl)
  | fire hreach _ _ _ ih => exact ((hreach.adds rfl rfl rfl).trans (.fire _ _ _ _ _ _ _ rfl rfl)).trans ih
  | @complete _ trace r _ _ _ hr₁ _ =>
    subst hr₁
    exact (hmerges r trace).trans (.one rfl rfl)
  | @rework _ _ trace r _ _ _ _ _ _ hsched => exact ((hmerges r trace).trans (hsched.adds rfl)).trans (.one rfl rfl)
  | @error trace r => exact ((hmerges r trace).trans (.same (errorOut_events _))).trans (.one rfl rfl)

/-- The join that an outcome reaches is a node of the definition. -/
theorem Reaches.join {source : ActivityInstance} {round : Int} {outcome : AdvanceOutcome} {trace : ResolveTrace}
    {join : WorkflowNode} {exclude : Option Uuid}
    (h : Reaches env ctx source round outcome trace r join exclude r') :
    findNode ctx.snapshot.nodes join.id = some join := by
  cases h with
  | arrive hnode _ =>
    obtain ⟨hfind, hid⟩ := InstanceCtx.node_ok hnode
    rwa [hid]
  | emptyFanOut _ hnode =>
    obtain ⟨hfind, hid⟩ := InstanceCtx.node_ok hnode
    rwa [hid]

private theorem reentered_of_scheduled {key entryId : String} {entryRole : Option String} {node : WorkflowNode}
    {row : ActivityRow} {r₁ : InstanceRows} (hcompleted : r.inst.status = .completed)
    (hentry : decideStart r.snapshot.nodes = some (entryId, entryRole)) (hnode : r.ctx.node entryId = .ok node)
    (hsched : Scheduled env r.inst.tenantId node entryRole (r.maxRound + 1) none
      (r.reactivate env.now (r.maxRound + 1) key) row r₁) : Reentered r (r₁.pointTo row.id) := by
  refine ⟨hcompleted, ?_, entryId, entryRole, row, hentry, ?_, ?_, ?_, ?_⟩
  · rw [pointTo_status, hsched.inst]
    rfl
  · rw [InstanceRows.pointTo_activities]
    exact hsched.activities
  · rw [hsched.row_eq]
    exact (InstanceCtx.node_ok hnode).2
  · rw [hsched.row_eq]
    rfl
  · rw [hsched.row_eq]
    rfl

theorem Started.status {supply : Supply} {cmd : StartCommand} (h : Started svc env supply cmd r) :
    r.inst.status = .active := by
  obtain ⟨entryId, entryRole, node, row, r₁, -, -, hsched, rfl⟩ := h.rows
  rw [pointTo_status, hsched.inst]
  rfl

/-- A call resolves an activity, brings a returned instance back, or leaves every status as it is. -/
theorem Effect.resolves {call : Call} (h : Effect svc env call r r') :
    Quiet r r' ∨ Reentered r r' ∨ ∃ row r₀, Resolves svc env call r row r₀ r' := by
  cases h with
  | nothing => exact .inl ⟨rfl, rfl, .same rfl⟩
  | assignee => exact .inl ⟨rfl, statuses_of_update fun _ => ⟨rfl, rfl⟩, .one rfl rfl⟩
  | @advance cmd _ r₁ _ row node ctx _ _ hlive hrow hactive _ _ hctx happly =>
    obtain ⟨hactivities, hs, hadds⟩ := hctx.quiet
    obtain ⟨hresumes, hresolved, hall⟩ := resumed_of_resolve env.now cmd (row.intoModel r.inst.id) hs hadds
    have hkeeps : Keeps svc r _ := hctx.keeps.trans (.resolve r₁ env.now cmd (row.intoModel r.inst.id))
    refine .inr (.inr ⟨row, _, hrow, hactive, hlive, hkeeps, hall, ?_, fun a ha hs => ?_, hresolved, hresumes,
      ctx, _, _, hctx.snapshot.trans hkeeps.evolves.snapshot.symm, decideAdvance_decided .., happly⟩)
    · rw [InstanceRows.resolve, InstanceRows.resume_activities, ← hactivities]
      exact List.length_map ..
    · rw [InstanceRows.resolve, InstanceRows.resume_activities] at ha
      rw [← hactivities]
      exact active_of_settled (f := ActivityRow.complete _ _ _ _) (fun _ => nofun) ha hs
  | reenter hcompleted _ _ _ hentry hnode hsched =>
    exact .inr (.inl (reentered_of_scheduled hcompleted hentry hnode hsched))
  | timerGone => exact .inl ⟨rfl, rfl, .same rfl⟩
  | reminder =>
    refine .inl ⟨?_, ?_, (Adds.timerFired _ _ _ _ _ rfl).trans (.same (enqueueOutbox_events ..))⟩
    · unfold InstanceRows.enqueueOutbox
      split <;> rfl
    · rw [InstanceRows.enqueueOutbox_activities]
      rfl
  | escalationGone => exact .inl ⟨rfl, rfl, .timerFired _ _ _ _ _ rfl⟩
  | @escalated t _ row node toRole =>
    have hfired : Adds EventType.isQuiet r (r.timerFired env.now t row.id node.id) := .timerFired _ _ _ _ _ rfl
    refine .inl ⟨?_, ?_, (hfired.trans (.one rfl rfl)).trans (.same (enqueueOutbox_events ..))⟩
    · unfold InstanceRows.enqueueOutbox
      split <;> rfl
    · rw [InstanceRows.enqueueOutbox_activities]
      exact statuses_of_update fun _ => ⟨rfl, rfl⟩
  | @timedOut t _ _ row node _ _ _ hrow hactive hlive _ happly =>
    have hfired : ∀ p : EventType → Bool, p .timerFired = true → Adds p r (r.timerFired env.now t row.id node.id) :=
      fun p hp => .timerFired _ _ _ _ _ hp
    have hkeeps : Keeps svc r _ := (Keeps.timerFired r env.now t row.id node.id).trans
      (.timeOutActivity _ env.now row.id)
    refine .inr (.inr ⟨row, _, hrow, hactive, hlive, hkeeps, (hfired _ rfl).trans (.one rfl rfl), ?_,
      fun a ha hs => active_of_settled (f := ActivityRow.skip) (fun _ => nofun) ha hs,
      (resolved_after (hfired _ rfl) rfl (resolves_timedOut ..)).1,
      .same (.inl rfl) rfl ((hfired _ rfl).trans (.one rfl rfl)),
      r.ctx, _, _, hkeeps.evolves.snapshot.symm, .inl (decideEventWaitTimeout_resolved _), happly⟩)
    exact List.length_map ..
  | @delivered _ _ row hrow hactive _ hlive happly =>
    have hkeeps : Keeps svc r _ := .completeActivity r env.now row.id none 0 none (deliveredPayload row.id)
    refine .inr (.inr ⟨row, _, hrow, hactive, hlive, hkeeps, .one rfl rfl, ?_,
      fun a ha hs => active_of_settled (f := ActivityRow.complete _ _ _ _) (fun _ => nofun) ha hs,
      (resolved_after (.same rfl) rfl (resolves_delivered ..)).1, .same (.inl rfl) rfl (.one rfl rfl),
      r.ctx, _, _, hkeeps.evolves.snapshot.symm, decideAdvance_decided .., happly⟩)
    exact List.length_map ..
  | callback => exact .inl ⟨rfl, rfl, .same rfl⟩
  | deadLetter => exact .inl ⟨rfl, rfl, .one rfl rfl⟩

/-- A resubmit does nothing, or it brings a returned instance back. -/
theorem Effect.resubmit {scope : ScopeFilter} {key : String} (h : Effect svc env (.resubmit scope key) r r') :
    r' = r ∨ Reentered r r' := by
  cases h with
  | nothing => exact .inl rfl
  | reenter hcompleted _ _ _ hentry hnode hsched => exact .inr (reentered_of_scheduled hcompleted hentry hnode hsched)

end
end Fusions.Hetuflow
