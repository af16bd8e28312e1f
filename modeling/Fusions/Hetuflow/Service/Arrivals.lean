import Fusions.Hetuflow.Service.Log

/-! Branches and their joins: which call accepts an activity, what a fan-out booked, and when a join
that is looked at fires. -/
namespace Fusions.Hetuflow
open Fusions.Library

/-- Completed with a result other than rejected or returned. -/
def ActivityRow.accepted (a : ActivityRow) : Bool :=
  a.status == .completed && !(a.result == some 2 || a.result == some 3)

theorem ActivityRow.accepted_status {a : ActivityRow} (h : a.accepted = true) : a.status = .completed := by
  simp only [accepted, Bool.and_eq_true, beq_iff_eq] at h
  exact h.1

/-- Where a node's own completion signal leads. -/
def DefinitionSnapshot.completionTarget (s : DefinitionSnapshot) (id : String) : Option String := do
  let node ← findNode s.nodes id
  let signal ← completionSignal node.kind
  let t ← findNextTransition s.transitions id signal
  some t.target

theorem resolve_of_parallelJoin {cel : Cel} {nodes : List WorkflowNode} {transitions : List WorkflowTransition}
    {context : Option Json} {id : String} {join : WorkflowNode} (hfind : findNode nodes id = some join)
    (hkind : join.kind = .parallelJoin) :
    resolve cel nodes transitions context id = (.advance id none, .default) := by
  simp [resolve, resolveTarget, hfind, hkind]

/-- A node whose completion leads to a join advances to it. -/
theorem decideAdvance_of_completionTarget {cel : Cel} {s : DefinitionSnapshot} {context : Option Json}
    {id join : String} {node joinNode : WorkflowNode} {signal : SignalType}
    (hnode : findNode s.nodes id = some node) (hsignal : completionSignal node.kind = some signal)
    (htarget : s.completionTarget id = some join) (hjoin : findNode s.nodes join = some joinNode)
    (hkind : joinNode.kind = .parallelJoin) :
    decideAdvance cel s.nodes s.transitions context id signal = (.advance join none, .default) := by
  simp only [DefinitionSnapshot.completionTarget, Option.bind_eq_bind, hnode, hsignal, Option.bind_some,
    Option.bind_eq_some_iff, Option.some.injEq] at htarget
  obtain ⟨t, ht, rfl⟩ := htarget
  have hcases : signal = .approved ∨ signal = .completed ∨ signal = .eventReceived := by
    unfold completionSignal at hsignal
    split at hsignal <;> simp_all
  unfold decideAdvance
  rcases hcases with rfl | rfl | rfl <;> simp only [ht] <;> exact resolve_of_parallelJoin hjoin hkind

section
variable {svc : WorkflowService} {env : Env} {ctx : InstanceCtx} {source : ActivityInstance} {round : Int}

theorem Branches.active {via : String} {targets : List ParallelTarget} {rows : List ActivityRow}
    {r r' : InstanceRows} (h : Branches env ctx round via targets r rows r') :
    ∀ a ∈ rows, a.status = .active := by
  induction h with
  | nil => simp
  | cons _ hsched _ ih =>
    intro a ha
    rcases List.mem_cons.1 ha with rfl | ha
    · rw [hsched.row_eq]
      rfl
    · exact ih a ha

/-- A scheduled activity is not accepted. -/
private theorem mem_of_scheduled {r₀ r₁ : InstanceRows} {tenantId : Int} {node : WorkflowNode} {role : Option String}
    {n : Int} {fanout : Option FanoutMark} {row a : ActivityRow}
    (h : Scheduled env tenantId node role n fanout r₀ row r₁) (ha : a ∈ r₁.activities) (hacc : a.accepted = true) :
    a ∈ r₀.activities := by
  rw [h.activities] at ha
  rcases List.mem_append.1 ha with ha | ha
  · exact ha
  · have hstatus := ActivityRow.accepted_status hacc
    rw [List.mem_singleton.1 ha, h.row_eq] at hstatus
    cases hstatus

/-- An applied outcome accepts nothing. -/
theorem Applied.accepted {outcome : AdvanceOutcome} {trace : ResolveTrace} {r r' : InstanceRows}
    (h : Applied env ctx source round svc outcome trace r r') {a : ActivityRow} (ha : a ∈ r'.activities)
    (hacc : a.accepted = true) : a ∈ r.activities := by
  induction h with
  | @schedule _ _ _ _ r₁ _ row _ _ hsched =>
    rw [InstanceRows.pointTo_activities] at ha
    simpa using mem_of_scheduled hsched ha hacc
  | fan _ hbranches =>
    rw [hbranches.booking.2.1] at ha
    rcases List.mem_append.1 ha with ha | ha
    · simpa [fanOutRows, InstanceRows.log, InstanceRows.appendEvent, InstanceRows.clearCurrent,
        InstanceRows.updateInstance] using ha
    · have hstatus := ActivityRow.accepted_status hacc
      rw [hbranches.active a ha] at hstatus
      cases hstatus
  | wait hreach _ _ =>
    rw [← hreach.rows.1]
    exact ha
  | fire hreach _ _ _ ih =>
    have ha := ih ha
    rw [fire_activities, hreach.rows.1] at ha
    split at ha
    · obtain ⟨b, hb, rfl⟩ := List.mem_map.1 ha
      split at hacc
      · cases hacc
      · next hother => simpa [hother] using hb
    · exact ha
  | complete _ hr₁ _ =>
    subst hr₁
    simpa [InstanceRows.log, InstanceRows.appendEvent, InstanceRows.finish, InstanceRows.updateInstance] using ha
  | rework _ _ _ hsched => simpa using mem_of_scheduled hsched ha hacc
  | @error trace r reason =>
    simpa [InstanceRows.log, InstanceRows.appendEvent] using ha

/-- The call accepts an activity: it completes it with its node's own signal and applies the outcome. -/
structure Accepts (svc : WorkflowService) (env : Env) (r : InstanceRows) (row : ActivityRow)
    (r₁ r' : InstanceRows) : Prop where
  row_mem : row ∈ r.activities
  keeps : Keeps svc r r₁
  writes : Writes r r₁
  only : ∀ a ∈ r₁.activities, a.accepted = true → a ∈ r.activities ∨ a.id = row.id
  applied : ∃ ctx node signal, ctx.snapshot = r.snapshot ∧
    findNode r.snapshot.nodes row.activityDefinitionId = some node ∧ completionSignal node.kind = some signal ∧
    Applied env ctx (row.intoModel r.inst.id) row.round svc
      (decideAdvance svc.cel ctx.snapshot.nodes ctx.snapshot.transitions ctx.context row.activityDefinitionId
        signal).1
      (decideAdvance svc.cel ctx.snapshot.nodes ctx.snapshot.transitions ctx.context row.activityDefinitionId
        signal).2 r₁ r'

private theorem mem_of_update {r : InstanceRows} {p : ActivityRow → Bool} {f : ActivityRow → ActivityRow}
    {a : ActivityRow} (ha : a ∈ (r.updateActivities p f).activities) :
    a ∈ r.activities ∨ ∃ b ∈ r.activities, p b = true ∧ a = f b := by
  obtain ⟨b, hb, rfl⟩ := List.mem_map.1 ha
  by_cases hp : p b = true
  · exact .inr ⟨b, hb, hp, by simp [hp]⟩
  · exact .inl (by simpa [hp] using hb)

/-- An active activity that keeps its status is not accepted. -/
private theorem mem_of_update_active {r : InstanceRows} {id : Uuid} {f : ActivityRow → ActivityRow} {a : ActivityRow}
    (ha : a ∈ (r.updateActivities (ActivityRow.isActive id) f).activities) (hacc : a.accepted = true)
    (hf : ∀ b, (f b).status = b.status) : a ∈ r.activities := by
  rcases mem_of_update ha with ha | ⟨b, -, hp, rfl⟩
  · exact ha
  · have hstatus := ActivityRow.accepted_status hacc
    rw [hf, ((ActivityRow.isActive_iff _ _).1 hp).2] at hstatus
    cases hstatus

/-- What a completed activity leaves: every other row as it was. -/
private theorem mem_complete {r : InstanceRows} {now : Time} {id : Uuid} {result : Option Int} {actor : Int}
    {notes : Option String} {a : ActivityRow}
    (ha : a ∈ (r.updateActivities (ActivityRow.isActive id)
      (ActivityRow.complete result actor notes now)).activities) :
    a ∈ r.activities ∨ a.id = id ∧ a.result = result := by
  rcases mem_of_update ha with ha | ⟨b, -, hp, rfl⟩
  · exact .inl ha
  · exact .inr ⟨((ActivityRow.isActive_iff _ _).1 hp).1, rfl⟩

private theorem ContextWritten.activities {node : WorkflowNode} {patch : Option Json} {ctx' : InstanceCtx}
    {r r' : InstanceRows} (h : ContextWritten env node round patch ctx r ctx' r') :
    r'.activities = r.activities := by
  cases h <;> rfl

/-- A signal that its node declares is the node's completion signal, or it leaves no acceptance. -/
theorem completionSignal_of_check {node : WorkflowNode} {signal : SignalType} {eventType : Option String}
    (h : checkSignalAgainstNode node signal eventType = .ok ()) (hclaim : signal ≠ .claimed)
    (hreassign : signal ≠ .reassigned) :
    completionSignal node.kind = some signal ∨
      (signalResult signal).bind activityResultFromStr = some 2 ∨
      (signalResult signal).bind activityResultFromStr = some 3 := by
  unfold checkSignalAgainstNode at h
  cases signal with
  | claimed => exact absurd rfl hclaim
  | reassigned => exact absurd rfl hreassign
  | resubmitted => cases h
  | rejected => exact .inr (.inl (by decide))
  | returned => exact .inr (.inr (by decide))
  | approved =>
    dsimp only at h
    split at h
    · next hk => exact .inl (by rw [hk]; rfl)
    · cases h
  | completed =>
    dsimp only at h
    split at h
    · next hk => exact .inl (by rw [hk]; rfl)
    · next hk => exact .inl (by rw [hk]; rfl)
    · cases h
  | eventReceived =>
    dsimp only at h
    split at h
    · cases h
    · next hwait =>
      have hk : node.kind = .eventWait := WorkflowNode.isSome_eventWait_iff.1 (by rw [hwait]; rfl)
      exact .inl (by rw [hk]; rfl)

/-- A call that returns accepts nothing, or one activity. -/
theorem Effect.accepts {call : Call} {r r' : InstanceRows} (h : Effect svc env call r r') (w : WellFormed svc r) :
    (∀ a ∈ r'.activities, a.accepted = true → a ∈ r.activities) ∨ ∃ row r₁, Accepts svc env r row r₁ r' := by
  cases h with
  | nothing => exact .inl fun _ ha _ => ha
  | assignee =>
    refine .inl fun a ha hacc => ?_
    exact mem_of_update_active ha hacc fun _ => rfl
  | @advance cmd _ r₁ _ row node ctx hclaim hreassign _ hrow hactive hnode hcheck hctx happly =>
    have hwrites : Writes r _ := hctx.writes.trans (.resolve r₁ env.now cmd (row.intoModel r.inst.id))
    have hmem : ∀ a ∈ (r₁.resolve env.now cmd (row.intoModel r.inst.id)).activities, a ∈ r.activities ∨
        a.id = row.id ∧ a.result = (signalResult cmd.signal).bind activityResultFromStr := by
      intro a ha
      rw [InstanceRows.resolve, InstanceRows.resume_activities] at ha
      rw [← hctx.activities]
      exact mem_complete ha
    rcases completionSignal_of_check hcheck hclaim hreassign with hsignal | hbad
    · refine .inr ⟨row, _, hrow, hctx.keeps.trans (.resolve ..), hwrites,
        fun a ha _ => (hmem a ha).imp_right And.left, ctx, node, cmd.signal, hctx.snapshot,
        (InstanceCtx.node_ok hnode).1, hsignal, happly⟩
    · refine .inl fun a ha hacc => ?_
      rcases hmem a (happly.accepted ha hacc) with hold | ⟨-, hresult⟩
      · exact hold
      · rcases hbad with hbad | hbad <;> simp [ActivityRow.accepted, hresult, hbad] at hacc
  | @reenter _ key _ r₁ _ _ _ row _ _ _ _ _ _ hsched =>
    refine .inl fun a ha hacc => ?_
    rw [InstanceRows.pointTo_activities] at ha
    have hold := mem_of_scheduled hsched ha hacc
    exact hold
  | timerGone => exact .inl fun _ ha _ => ha
  | reminder =>
    refine .inl fun a ha _ => ?_
    rw [InstanceRows.enqueueOutbox_activities] at ha
    exact ha
  | escalationGone => exact .inl fun _ ha _ => ha
  | escalated =>
    refine .inl fun a ha hacc => ?_
    rw [InstanceRows.enqueueOutbox_activities] at ha
    exact mem_of_update_active ha hacc fun _ => rfl
  | timedOut _ _ _ _ _ _ _ happly =>
    refine .inl fun a ha hacc => ?_
    rcases mem_of_update (happly.accepted ha hacc) with ha | ⟨b, -, -, rfl⟩
    · exact ha
    · cases hacc
  | @delivered _ _ row hrow _ hkind _ happly =>
    obtain ⟨node, hnode, htype⟩ := w.nodes row hrow
    have hnotification : node.kind = .notification := by
      rw [hkind] at htype
      cases hk : node.kind <;> simp [hk, instantiatedActivityType] at htype ⊢
    have hwrites : Writes r _ := .completeActivity r env.now row.id none 0 none (deliveredPayload row.id)
    refine .inr ⟨row, _, hrow, .completeActivity .., hwrites,
      fun a ha _ => (mem_complete ha).imp_right And.left, r.ctx, node, .completed, rfl, hnode,
      by rw [hnotification]; rfl, happly⟩
  | callback => exact .inl fun _ ha _ => ha
  | deadLetter => exact .inl fun _ ha _ => ha

private theorem fires_of_fire (r : InstanceRows) (now : Time) (join : WorkflowNode) (round arrived expected : Int)
    (exclude : Option Uuid) :
    ∃ e ∈ (r.fire now join round arrived expected exclude).events, e.firesJoin join.id round = true := by
  refine ⟨⟨r.nextSeq, .parallelJoinSatisfied, joinSatisfiedPayload join.id arrived expected round, none, now⟩, ?_,
    firesJoin_fired ..⟩
  unfold InstanceRows.fire InstanceRows.skipRemaining
  dsimp only
  split
  · split <;> simp [InstanceRows.log, InstanceRows.appendEvent, InstanceRows.skipOthers,
      InstanceRows.updateActivities, InstanceRows.updateTimers]
  · simp [InstanceRows.log, InstanceRows.appendEvent]

/-- A branch that advances to a join is looked at there: the join fires, or it keeps waiting over the
counts it then sees. -/
theorem Applied.looks {target : String} {role : Option String} {trace : ResolveTrace} {join : WorkflowNode}
    {r r' : InstanceRows} (h : Applied env ctx source round svc (.advance target role) trace r r')
    (hjoin : ctx.node target = .ok join) (hkind : join.kind = .parallelJoin)
    (hsnapshot : ctx.snapshot = r.snapshot)
    (hdecided : Decided svc.cel ctx.snapshot.nodes ctx.context (.advance target role) trace) :
    (∃ e ∈ r'.events, e.firesJoin join.id round = true) ∨
      ∃ r₁ arrived expected, r₁.activities = r.activities ∧ Writes r r₁ ∧ (∀ e ∈ r₁.events, e ∈ r'.events) ∧
        JoinCounts ctx.snapshot r₁ join.id round arrived expected ∧
        (join.joinStrategy.getD .waitAll).isSatisfied arrived expected = false := by
  have hsame : ∀ {j : WorkflowNode}, ctx.node target = .ok j → j = join := fun h => by
    rw [hjoin] at h
    cases h
    rfl
  generalize hout : AdvanceOutcome.advance target role = outcome at h
  cases h with
  | schedule hnode hne _ =>
    cases hout
    exact absurd (hsame hnode ▸ hkind) hne
  | fan => cases hout
  | @wait _ trace _ r₁ j exclude arrived expected hreach hcounts hwait =>
    subst hout
    have hwrites := hreach.writes_waiting hsnapshot hdecided hcounts hwait
    have hrows := hreach.rows.1
    cases hreach with
    | arrive hnode _ =>
      obtain rfl := hsame hnode
      exact .inr ⟨_, _, _, hrows, hwrites, fun e he => he, hcounts, hwait⟩
  | @fire _ trace _ r₁ _ j exclude arrived expected hreach _ _ hnext =>
    subst hout
    have hsnap : ctx.snapshot = (r₁.fire env.now j round arrived expected exclude).snapshot := by
      rw [fire_snapshot, hreach.rows.2.1, hsnapshot]
    obtain ⟨new, hnew, -⟩ := (hnext.writes hsnap (decideAdvance_decided ..)).entries
    cases hreach with
    | arrive hnode _ =>
      obtain rfl := hsame hnode
      obtain ⟨e, he, hfires⟩ := fires_of_fire (r.passMerges env.now source.activityDefinitionId round
        trace.mergesPassed |>.log env.now .branchReachedJoin
          (branchReachedPayload source.activityDefinitionId j.id round) none) env.now j round arrived expected
          (some source.id)
      exact .inl ⟨e, by rw [hnew]; exact List.mem_append_left _ he, hfires⟩
  | complete => cases hout
  | rework => cases hout
  | error => cases hout

end

namespace InstanceRows

/-- A fan-out in the log: its marker, and the events of its branches right behind. -/
structure FanOut (r : InstanceRows) (m : EventRow) (branches : List EventRow) (nodes : List String)
    (round : Int) : Prop where
  announced : m.announces r.snapshot = some (nodes, round)
  written : ∃ pre post, r.events = pre ++ m :: (branches ++ post)
  size : branches.length = nodes.length

/-- The fan-out whose marker stands at this place of the log. -/
def fanOutAt (r : InstanceRows) (k : Nat) : Option (EventRow × List EventRow × List String × Int) := do
  let m ← r.events[k]?
  let announced ← m.announces r.snapshot
  let branches := (r.events.drop (k + 1)).take announced.1.length
  if branches.length = announced.1.length then some (m, branches, announced) else none

theorem fanOut_of_at {r : InstanceRows} {k : Nat} {m : EventRow} {branches : List EventRow} {nodes : List String}
    {round : Int} (h : r.fanOutAt k = some (m, branches, nodes, round)) : r.FanOut m branches nodes round := by
  simp only [fanOutAt, Option.bind_eq_bind, Option.bind_eq_some_iff] at h
  obtain ⟨m', hm, announced, hannounces, h⟩ := h
  split at h
  · next hlen =>
    cases h
    obtain ⟨hk, rfl⟩ := List.getElem?_eq_some_iff.1 hm
    refine ⟨hannounces, ⟨r.events.take k, (r.events.drop (k + 1)).drop nodes.length, ?_⟩, hlen⟩
    rw [List.take_append_drop, List.getElem_cons_drop, List.take_append_drop]
  · cases h

/-- Every activity that these events scheduled is accepted. -/
def AllAccepted (r : InstanceRows) (branches : List EventRow) : Prop :=
  ∀ e ∈ branches, ∀ a ∈ r.activities, e.booking.map Prod.fst = some a.id → a.accepted = true

instance (r : InstanceRows) (branches : List EventRow) : Decidable (r.AllAccepted branches) :=
  inferInstanceAs (Decidable (∀ e ∈ branches, ∀ a ∈ r.activities, _ → _))

end InstanceRows

section
variable {r : InstanceRows} {m : EventRow} {branches : List EventRow} {nodes : List String} {round : Int}

/-- What follows the marker of a fan-out. -/
private theorem branches_of_announces {s : DefinitionSnapshot} {pre post : List EventRow}
    (h : Blocks (Entry s) (pre ++ m :: post)) (hm : m.announces s = some (nodes, round)) :
    ∃ es post', post = es ++ post' ∧
      es.map (fun e => e.booking.map Prod.snd) = nodes.map fun id => some (id, round) := by
  obtain ⟨v, post', hpost, hhead⟩ := heads_of_fanOut h (type_of_announces hm)
  cases hhead with
  | fanOut hannounces _ hplaces =>
    obtain ⟨rfl, rfl⟩ : nodes = _ ∧ round = _ := by simpa using hm.symm.trans hannounces
    exact ⟨v, post', hpost, hplaces⟩
  | idle hannounces =>
    obtain ⟨rfl, -⟩ : nodes = [] ∧ _ := by simpa using hm.symm.trans hannounces
    exact ⟨[], post, rfl, rfl⟩
  | fired hx hannounces =>
    rcases type_of_announces hm with ht | ht
    · simp [EventRow.reachesJoin, ht] at hx
    · obtain ⟨rfl, -⟩ : nodes = [] ∧ _ := by simpa using hm.symm.trans (hannounces ht)
      exact ⟨[], post, rfl, rfl⟩

private theorem length_of_places {es : List EventRow}
    (h : es.map (fun e => e.booking.map Prod.snd) = nodes.map fun id => some (id, round)) :
    es.length = nodes.length := by
  have := congrArg List.length h
  simpa using this

/-- The branches of a fan-out are booked at the announced nodes, in its round. -/
theorem InstanceRows.FanOut.places (h : r.FanOut m branches nodes round) (hlog : r.Logged) :
    branches.map (fun e => e.booking.map Prod.snd) = nodes.map fun id => some (id, round) := by
  obtain ⟨pre, post, hevents⟩ := h.written
  obtain ⟨es, post', hpost, hplaces⟩ := branches_of_announces (hevents ▸ hlog.entries) h.announced
  rw [(List.append_inj hpost (h.size.trans (length_of_places hplaces).symm)).1]
  exact hplaces

/-- The activity rows of a fan-out stand together. -/
theorem InstanceRows.FanOut.rows (h : r.FanOut m branches nodes round) (hlog : r.Logged) :
    ∃ before rows after, r.activities = before ++ rows ++ after ∧
      rows.map (fun a => a.booking.2) = nodes.map (fun id => (id, round)) ∧
      ∀ a ∈ rows, ∃ e ∈ branches, e.booking = some a.booking := by
  obtain ⟨pre, post, hevents⟩ := h.written
  have hbooked : r.events.filterMap EventRow.booking = r.activities.map ActivityRow.booking := hlog.booked
  have hm : m.booking = none := EventRow.booking_of_ne (by
    rcases type_of_announces h.announced with ht | ht <;> rw [ht] <;> nofun)
  rw [hevents, List.filterMap_append, List.filterMap_cons, hm, List.filterMap_append, ← List.append_assoc] at hbooked
  obtain ⟨front, after, hact, hfront, -⟩ := List.map_eq_append_iff.1 hbooked.symm
  obtain ⟨before, rows, rfl, -, hrows⟩ := List.map_eq_append_iff.1 hfront
  refine ⟨before, rows, after, hact, ?_, fun a ha => ?_⟩
  · have hplaces := h.places hlog
    have hsnd : (branches.filterMap EventRow.booking).map Prod.snd =
        (branches.map fun e => e.booking.map Prod.snd).filterMap id := by
      rw [List.map_filterMap, List.filterMap_map]
      rfl
    rw [← hrows, hplaces, List.map_map, List.filterMap_map] at hsnd
    simpa [Function.comp_def] using hsnd
  · have hmem : a.booking ∈ branches.filterMap EventRow.booking := by
      rw [← hrows]
      exact List.mem_map_of_mem ha
    exact List.mem_filterMap.1 hmem

/-- An accepted fan-out counts in full at every join that counts its nodes. -/
theorem InstanceRows.FanOut.arrivals (h : r.FanOut m branches nodes round) (hlog : r.Logged)
    (hdone : r.AllAccepted branches) {ids : List String} (hids : ∀ b ∈ nodes, b ∈ ids) :
    (nodes.length : Int) ≤ r.countCompletedBranches ids round := by
  obtain ⟨before, rows, after, hact, hplaces, hbooked⟩ := h.rows hlog
  have hlen : rows.length = nodes.length := by
    have := congrArg List.length hplaces
    simpa using this
  have hall : rows.countP (InstanceRows.isArrival ids round) = rows.length := by
    refine List.countP_eq_length.2 fun a ha => ?_
    obtain ⟨e, he, hbook⟩ := hbooked a ha
    have hacc := hdone e he a (by rw [hact]; simp [ha]) (by rw [hbook]; rfl)
    have hplace : a.booking.2 ∈ nodes.map fun id => (id, round) := by
      rw [← hplaces]
      exact List.mem_map_of_mem ha
    obtain ⟨id, hid, heq⟩ := List.mem_map.1 hplace
    obtain ⟨hdef, hround⟩ : id = a.activityDefinitionId ∧ round = a.round := by
      simpa [ActivityRow.booking] using heq
    have hcontains : ids.contains a.activityDefinitionId = true := by
      rw [← hdef]
      simpa using hids id hid
    simp only [ActivityRow.accepted] at hacc
    simp only [InstanceRows.isArrival, hacc, hcontains, Bool.true_and, Bool.and_true, beq_iff_eq]
    exact hround.symm
  unfold InstanceRows.countCompletedBranches
  rw [hact, List.countP_append, List.countP_append, hall, hlen]
  omega

/-- A fan-out whose marker stands in an earlier log stands there whole. -/
private theorem FanOut.earlier {r' : InstanceRows} {pre rest post new : List EventRow}
    (h : r'.FanOut m branches nodes round) (hsnapshot : r'.snapshot = r.snapshot) (hlog : r.Logged)
    (hevents : r.events = pre ++ m :: rest) (hrest : branches ++ post = rest ++ new) :
    r.FanOut m branches nodes round := by
  have hm := h.announced
  rw [hsnapshot] at hm
  obtain ⟨es, post', rfl, hplaces⟩ := branches_of_announces (hevents ▸ hlog.entries) hm
  rw [List.append_assoc] at hrest
  obtain ⟨rfl, -⟩ := List.append_inj hrest (h.size.trans (length_of_places hplaces).symm)
  exact ⟨hm, ⟨pre, post', hevents⟩, h.size⟩

private theorem FanOut.later {r' : InstanceRows} (h : r.FanOut m branches nodes round) (hwrites : Writes r r') :
    r'.FanOut m branches nodes round := by
  obtain ⟨pre, post, hevents⟩ := h.written
  obtain ⟨new, hnew, -⟩ := hwrites.entries
  exact ⟨by rw [hwrites.snapshot]; exact h.announced, ⟨pre, post ++ new, by rw [hnew, hevents]; simp⟩, h.size⟩

private theorem FanOut.mem (h : r.FanOut m branches nodes round) :
    m ∈ r.events ∧ ∀ e ∈ branches, e ∈ r.events := by
  obtain ⟨pre, post, hevents⟩ := h.written
  rw [hevents]
  exact ⟨by simp, fun e he => by simp [he]⟩

/-- An activity of a fan-out is at an announced node, in the round of the fan-out. -/
private theorem FanOut.place {svc : WorkflowService} (h : r.FanOut m branches nodes round) (hlog : r.Logged)
    (w : WellFormed svc r) {e : EventRow} (he : e ∈ branches) {a : ActivityRow} (ha : a ∈ r.activities)
    (hid : e.booking.map Prod.fst = some a.id) : a.activityDefinitionId ∈ nodes ∧ a.round = round := by
  obtain ⟨b, hb, hfst⟩ := Option.map_eq_some_iff.1 hid
  have hmem : b ∈ r.events.filterMap EventRow.booking := List.mem_filterMap.2 ⟨e, (FanOut.mem h).2 e he, hb⟩
  rw [show r.events.filterMap EventRow.booking = _ from hlog.booked] at hmem
  obtain ⟨a', ha', rfl⟩ := List.mem_map.1 hmem
  obtain rfl := w.eq_of_id ha' ha hfst
  have hplace : e.booking.map Prod.snd ∈ nodes.map fun id => some (id, round) := by
    rw [← h.places hlog]
    exact List.mem_map_of_mem he
  rw [hb] at hplace
  obtain ⟨id, hid, heq⟩ := List.mem_map.1 hplace
  obtain ⟨rfl, rfl⟩ : id = a'.activityDefinitionId ∧ round = a'.round := by
    simpa [ActivityRow.booking] using heq
  exact ⟨hid, rfl⟩

/-- What a call schedules is no activity from before it. -/
private theorem ne_of_scheduled {svc : WorkflowService} {r' : InstanceRows} {new : List EventRow}
    (hlog : r.Logged) (hlog' : r'.Logged) (w' : WellFormed svc r') (hnew : r'.events = r.events ++ new)
    {e : EventRow} (he : e ∈ new) {id : Uuid} (hid : e.booking.map Prod.fst = some id) {a : ActivityRow}
    (ha : a ∈ r.activities) : a.id ≠ id := by
  obtain ⟨b, hb, rfl⟩ := Option.map_eq_some_iff.1 hid
  have hnodup := w'.ids_nodup
  have hids : ∀ x : InstanceRows, x.Booked → x.activities.map ActivityRow.id =
      (x.events.filterMap EventRow.booking).map Prod.fst := by
    intro x hx
    rw [show x.events.filterMap EventRow.booking = _ from hx, List.map_map]
    rfl
  rw [hids r' hlog'.booked, hnew, List.filterMap_append, List.map_append, ← hids r hlog.booked,
    List.nodup_append] at hnodup
  exact hnodup.2.2 _ (List.mem_map_of_mem ha) _ (List.mem_map_of_mem (List.mem_filterMap.2 ⟨e, he, hb⟩))

/-- The join serves the fan-out: its branches lead there, and whenever all of them are accepted, the
counts a look at the join sees satisfy it; an empty one satisfies it at once. -/
structure Serves (r : InstanceRows) (m : EventRow) (nodes : List String) (join : WorkflowNode) (round : Int) :
    Prop where
  found : findNode r.snapshot.nodes join.id = some join
  kind : join.kind = .parallelJoin
  leads : ∀ b ∈ nodes, r.snapshot.completionTarget b = some join.id
  enough : nodes ≠ [] → ∀ r₁ : InstanceRows, r₁.snapshot = r.snapshot → r₁.Logged → (∀ e ∈ r₁.events, e ∈ r.events) →
    m ∈ r₁.events →
    (∀ ids : List String, (∀ b ∈ nodes, b ∈ ids) → (nodes.length : Int) ≤ r₁.countCompletedBranches ids round) →
    ∀ arrived expected, JoinCounts r.snapshot r₁ join.id round arrived expected →
      (join.joinStrategy.getD .waitAll).isSatisfied arrived expected = true
  empty : nodes = [] → m.eventType = .forEachFannedOut ∧ m.str "join_node" = some join.id ∧
    (join.joinStrategy.getD .waitAll).isSatisfied 0 0 = true

private theorem Serves.earlier {r' : InstanceRows} {join : WorkflowNode} (h : Serves r' m nodes join round)
    (hwrites : Writes r r') : Serves r m nodes join round := by
  obtain ⟨new, hnew, -⟩ := hwrites.entries
  have hsnapshot := hwrites.snapshot
  refine ⟨by rw [← hsnapshot]; exact h.found, h.kind, by rw [← hsnapshot]; exact h.leads, ?_, h.empty⟩
  rw [← hsnapshot]
  exact fun hne r₁ hs hlog hsub => h.enough hne r₁ hs hlog fun e he => by
    rw [hnew]
    exact List.mem_append_left _ (hsub e he)

end

section
variable {svc : WorkflowService} {env : Env} {r r' : InstanceRows} {m : EventRow} {branches : List EventRow}
  {nodes : List String} {join : WorkflowNode} {round : Int}

/-- An empty fan-out that its join serves makes it fire at once. -/
private theorem fires_of_empty (hlog : r.Logged) (hm : m.announces r.snapshot = some ([], round))
    (hmem : m ∈ r.events) (hserves : Serves r m [] join round) :
    ∃ e ∈ r.events, e.firesJoin join.id round = true := by
  obtain ⟨hfor, hjoin, hsat⟩ := hserves.empty rfl
  obtain ⟨pre, post, hevents⟩ := List.append_of_mem hmem
  obtain ⟨v, post', rfl, hhead⟩ := heads_of_fanOut (hevents ▸ hlog.entries) (.inr hfor)
  cases hhead with
  | fanOut hannounces hnonempty _ =>
    obtain ⟨rfl, -⟩ : [] = _ ∧ _ := by simpa using hm.symm.trans hannounces
    exact absurd rfl (hnonempty hfor)
  | idle _ hjoin' hfind harrived hwait =>
    rw [hjoin] at hjoin'
    rw [← Option.some.inj hjoin', hserves.found] at hfind
    cases hfind
    rw [JoinStrategy.isSatisfied_mono hsat harrived] at hwait
    cases hwait
  | @fired y j n hx hannounces hy hv =>
    obtain rfl : round = n := by simpa using hm.symm.trans (hannounces hfor)
    have hreach : m.str "join_node" = some j := by
      simp only [EventRow.reachesJoin, Bool.and_eq_true, beq_iff_eq] at hx
      exact hx.1.2
    obtain rfl : join.id = j := Option.some.inj (hjoin.symm.trans hreach)
    exact ⟨y, by rw [hevents, hv]; simp, hy⟩

/-- An activity that a fan-out of this call scheduled is not accepted yet. -/
private theorem not_accepted_of_new {call : Call} (heffect : Effect svc env call r r') (w : WellFormed svc r) (hlog : r.Logged)
    {new : List EventRow} (hnew : r'.events = r.events ++ new) {e : EventRow} (he : e ∈ new) {a : ActivityRow}
    (ha : a ∈ r'.activities) (hid : e.booking.map Prod.fst = some a.id) : a.accepted = false := by
  refine Bool.eq_false_iff.2 fun hacc => ?_
  have hfresh : ∀ b ∈ r.activities, b.id ≠ a.id := fun b hb => ne_of_scheduled hlog
    (heffect.writes.logged hlog) ((heffect.keeps w).wellFormed w) hnew he hid hb
  rcases heffect.accepts w with hnone | ⟨row, r₁, haccepts⟩
  · exact hfresh a (hnone a ha hacc) rfl
  · obtain ⟨ctx, node, signal, -, -, -, happly⟩ := haccepts.applied
    rcases haccepts.only a (happly.accepted ha hacc) hacc with hold | hrow
    · exact hfresh a hold rfl
    · exact hfresh row haccepts.row_mem hrow.symm

/-- The call that accepts the last branch of a fan-out makes the join fire that serves it. -/
private theorem fires_of_accepts {row : ActivityRow} {r₁ : InstanceRows} (haccepts : Accepts svc env r row r₁ r')
    (w : WellFormed svc r) (hlog : r.Logged) (hfan : r.FanOut m branches nodes round)
    (hdone : r'.AllAccepted branches) (hserves : Serves r' m nodes join round)
    (hbranch : ∃ e ∈ branches, e.booking.map Prod.fst = some row.id) :
    ∃ e ∈ r'.events, e.firesJoin join.id round = true := by
  obtain ⟨ctx, node, signal, hsnapshot, hnode, hsignal, happly⟩ := haccepts.applied
  have hsnap₁ : ctx.snapshot = r₁.snapshot := hsnapshot.trans haccepts.writes.snapshot.symm
  have hsnap' : r'.snapshot = ctx.snapshot :=
    (happly.writes hsnap₁ (decideAdvance_decided ..)).snapshot.trans hsnap₁.symm
  have hkeeps : Keeps svc r₁ r' := happly.keeps hsnap₁ (w.rounds _ haccepts.row_mem)
  have w₁ := haccepts.keeps.wellFormed w
  -- the branches are accepted before the outcome is applied
  have hdone₁ : r₁.AllAccepted branches := by
    intro e he a ha hid
    obtain ⟨a', ha', haged⟩ := hkeeps.evolves.activity ha
    have hacc := hdone e he a' ha' (by rw [haged.id]; exact hid)
    obtain rfl := w₁.eq_of_id ha (happly.accepted ha' hacc) haged.id.symm
    exact hacc
  obtain ⟨e, he, hid⟩ := hbranch
  obtain ⟨hplace, rfl⟩ := FanOut.place hfan hlog w he haccepts.row_mem hid
  have hleads := hserves.leads _ hplace
  have hfound := hserves.found
  rw [hsnap'] at hleads hfound
  rw [← hsnapshot] at hnode
  have hjoin : ctx.node join.id = .ok join := by simp [InstanceCtx.node, hfound]
  have hdecide : decideAdvance svc.cel ctx.snapshot.nodes ctx.snapshot.transitions ctx.context
      row.activityDefinitionId signal = (.advance join.id none, .default) :=
    decideAdvance_of_completionTarget hnode hsignal hleads hfound hserves.kind
  have hdecided : Decided svc.cel ctx.snapshot.nodes ctx.context (decideAdvance svc.cel ctx.snapshot.nodes
      ctx.snapshot.transitions ctx.context row.activityDefinitionId signal).1 _ := decideAdvance_decided ..
  rw [hdecide] at happly hdecided
  rcases happly.looks hjoin hserves.kind hsnap₁ hdecided with hfires | ⟨r₂, arrived, expected, hrows, hwrites, hsub,
    hcounts, hwait⟩
  · exact hfires
  · have hwrites₂ := haccepts.writes.trans hwrites
    have hfan₂ := FanOut.later hfan hwrites₂
    have hlog₂ := hwrites₂.logged hlog
    have hdone₂ : r₂.AllAccepted branches := by
      intro e he a ha
      rw [hrows] at ha
      exact hdone₁ e he a ha
    have hsat := hserves.enough (List.ne_nil_of_mem hplace) r₂ (by rw [hsnap', hwrites₂.snapshot, hsnapshot]) hlog₂ hsub (FanOut.mem hfan₂).1
      (fun ids hids => hfan₂.arrivals hlog₂ hdone₂ hids) arrived expected (by rw [hsnap']; exact hcounts)
    rw [hwait] at hsat
    cases hsat

/-- A call keeps it that served fan-outs have their join fired once they are accepted. -/
private theorem served_step {call : Call} (heffect : Effect svc env call r r') (w : WellFormed svc r)
    (hlog : r.Logged)
    (ih : r.FanOut m branches nodes round → r.AllAccepted branches → Serves r m nodes join round →
      ∃ e ∈ r.events, e.firesJoin join.id round = true)
    (hfan : r'.FanOut m branches nodes round) (hdone : r'.AllAccepted branches)
    (hserves : Serves r' m nodes join round) : ∃ e ∈ r'.events, e.firesJoin join.id round = true := by
  have hwrites := heffect.writes
  have w' := (heffect.keeps w).wellFormed w
  have hlog' := hwrites.logged hlog
  obtain ⟨new, hnew, -⟩ := hwrites.entries
  obtain ⟨pre, post, hevents⟩ := hfan.written
  have hnewFan : ∀ u, new = u ++ m :: (branches ++ post) →
      ∃ e ∈ r'.events, e.firesJoin join.id round = true := by
    rintro u rfl
    cases branches with
    | nil =>
      obtain rfl := List.eq_nil_of_length_eq_zero hfan.size.symm
      exact fires_of_empty hlog' hfan.announced (FanOut.mem hfan).1 hserves
    | cons e rest =>
      obtain ⟨a, ha, hid⟩ : ∃ a ∈ r'.activities, e.booking.map Prod.fst = some a.id := by
        have hplaces := hfan.places hlog'
        obtain ⟨b, hb⟩ : ∃ b, e.booking = some b := by
          cases nodes with
          | nil => simp at hplaces
          | cons id ids =>
            simp only [List.map_cons, List.cons.injEq, Option.map_eq_some_iff] at hplaces
            exact ⟨_, hplaces.1.choose_spec.1⟩
        have hmem : b ∈ r'.events.filterMap EventRow.booking :=
          List.mem_filterMap.2 ⟨e, (FanOut.mem hfan).2 e (by simp), hb⟩
        rw [show r'.events.filterMap EventRow.booking = _ from hlog'.booked] at hmem
        obtain ⟨a, ha, rfl⟩ := List.mem_map.1 hmem
        exact ⟨a, ha, by rw [hb]; rfl⟩
      have hacc := hdone e (by simp) a ha hid
      rw [not_accepted_of_new heffect w hlog hnew (by simp) ha hid] at hacc
      cases hacc
  have hold : r.FanOut m branches nodes round → ∃ e ∈ r'.events, e.firesJoin join.id round = true := by
    intro hfan₀
    have hsame : (∀ e ∈ branches, ∀ a' ∈ r'.activities, e.booking.map Prod.fst = some a'.id →
        a'.accepted = true → a' ∈ r.activities) → ∃ e ∈ r'.events, e.firesJoin join.id round = true := by
      intro hbefore
      obtain ⟨e, he, hfires⟩ := ih hfan₀ (fun e he a ha hid => by
        obtain ⟨a', ha', haged⟩ := (heffect.keeps w).evolves.activity ha
        have hid' : e.booking.map Prod.fst = some a'.id := by rw [haged.id]; exact hid
        have hacc := hdone e he a' ha' hid'
        obtain rfl := w.eq_of_id ha (hbefore e he a' ha' hid' hacc) haged.id.symm
        exact hacc) (hserves.earlier hwrites)
      exact ⟨e, by rw [hnew]; exact List.mem_append_left _ he, hfires⟩
    rcases heffect.accepts w with hnone | ⟨row, r₁, haccepts⟩
    · exact hsame fun _ _ a' ha' _ hacc => hnone a' ha' hacc
    · by_cases hbranch : ∃ e ∈ branches, e.booking.map Prod.fst = some row.id
      · exact fires_of_accepts haccepts w hlog hfan₀ hdone hserves hbranch
      · refine hsame fun e he a' ha' hid hacc => ?_
        obtain ⟨ctx, node, signal, -, -, -, happly⟩ := haccepts.applied
        rcases haccepts.only a' (happly.accepted ha' hacc) hacc with hmem | hrow
        · exact hmem
        · exact absurd ⟨e, he, by rw [← hrow]; exact hid⟩ hbranch
  rw [hevents] at hnew
  rcases List.append_eq_append_iff.1 hnew with ⟨u, hr, hu⟩ | ⟨u, -, hu⟩
  · cases u with
    | nil => exact hnewFan [] (by simpa using hu.symm)
    | cons x u =>
      obtain ⟨rfl, hrest⟩ := List.cons.inj hu
      exact hold (FanOut.earlier hfan hwrites.snapshot hlog hr hrest)
  · exact hnewFan u hu

/-- Once every branch of a fan-out that a join serves is accepted, the join has fired. -/
theorem served_of_reachable {store : Store} (h : (engine svc).Reachable store) (hr : r ∈ store)
    (hfan : r.FanOut m branches nodes round) (hdone : r.AllAccepted branches) (hserves : Serves r m nodes join round) :
    ∃ e ∈ r.events, e.firesJoin join.id round = true := by
  have hall : r.Logged ∧ ∀ m branches nodes round, r.FanOut m branches nodes round → r.AllAccepted branches →
      Serves r m nodes join round → ∃ e ∈ r.events, e.firesJoin join.id round = true := by
    refine rows_invariant (P := fun r => r.Logged ∧ ∀ m branches nodes round, r.FanOut m branches nodes round →
      r.AllAccepted branches → Serves r m nodes join round → ∃ e ∈ r.events, e.firesJoin join.id round = true)
      (fun env supply cmd r hstarted => ⟨hstarted.logged, fun m branches nodes round hfan => ?_⟩)
      (fun env call r r' w hP heffect => ⟨heffect.writes.logged hP.1, fun m branches nodes round =>
        served_step heffect w hP.1 (hP.2 m branches nodes round)⟩) h r hr
    -- a new instance has fanned out nothing
    have htype := type_of_announces hfan.announced
    obtain ⟨entryId, entryRole, node, row, r₁, -, -, hsched, rfl⟩ := hstarted.rows
    have hmem := (FanOut.mem hfan).1
    have hpoint : (r₁.pointTo row.id).events = r₁.events := by
      unfold InstanceRows.pointTo
      split <;> rfl
    rw [hpoint, hsched.events] at hmem
    simp [InstanceRows.log, InstanceRows.appendEvent, insertedRows] at hmem
    rcases hmem with rfl | rfl <;> simp at htype
  exact hall.2 m branches nodes round hfan hdone hserves

end
end Fusions.Hetuflow
