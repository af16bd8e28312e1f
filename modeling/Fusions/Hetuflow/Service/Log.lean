import Fusions.Library.Blocks
import Fusions.Hetuflow.Service.Invariant

/-! The grammar of the event log: which events the service writes together, and how the scheduled
ones stand for the activity rows. -/
namespace Fusions.Hetuflow
open Fusions.Library

namespace EventRow
variable (e : EventRow)

def str (key : String) : Option String := pstr e.payload key

def int (key : String) : Option Int := (e.payload.get key).bind Json.asI64

/-- A join fired in this round. -/
def firesJoin (join : String) (round : Int) : Bool :=
  e.eventType == .parallelJoinSatisfied && e.str "join_node" == some join && e.int "round" == some round

/-- The join is looked at in this round: a branch reached it, or an empty collection fanned out. -/
def reachesJoin (join : String) (round : Int) : Bool :=
  (e.eventType == .branchReachedJoin ||
    (e.eventType == .forEachFannedOut && e.int "branch_count" == some 0)) &&
  e.str "join_node" == some join && e.int "round" == some round

/-- Id, node and round of the activity an event schedules. -/
def booking : Option (Uuid × String × Int) :=
  if e.eventType = .activityScheduled then do
    let id ← e.str "activity_id"
    let node ← e.str "activity_definition_id"
    let round ← e.int "round"
    some (id, node, round)
  else none

/-- The branch targets a split scheduled. -/
def branchTargets : Option (List String) :=
  match e.payload.get "branch_targets" with
  | some (.arr targets) => targets.mapM Json.asStr
  | _ => none

/-- The branch nodes and the round a fan-out announces, over the snapshot it ran on. -/
def announces (s : DefinitionSnapshot) : Option (List String × Int) :=
  match e.eventType with
  | .parallelSplitScheduled => do
    let targets ← e.branchTargets
    let round ← e.int "round"
    some (targets, round)
  | .forEachFannedOut => do
    let node ← findNode s.nodes (← e.str "for_each_node")
    let f ← node.forEach
    let count ← e.int "branch_count"
    let round ← e.int "round"
    if e.str "join_node" = some f.2.2.1 then some (List.replicate count.toNat f.2.1, round) else none
  | _ => none

theorem booking_of_ne {e : EventRow} (h : e.eventType ≠ .activityScheduled) : e.booking = none := if_neg h

theorem type_of_booking {e : EventRow} (h : e.booking.isSome) : e.eventType = .activityScheduled := by
  refine Classical.byContradiction fun hne => ?_
  rw [booking_of_ne hne] at h
  cases h

end EventRow

/-- Events written on their own. -/
def EventType.isNote : EventType → Bool
  | .activityScheduled | .returnedToRework | .parallelJoinSatisfied | .parallelSplitScheduled
  | .forEachFannedOut => false
  | _ => true

/-- What the service writes to the log together. -/
inductive Entry (s : DefinitionSnapshot) : List EventRow → Prop where
  | note {e : EventRow} : e.eventType.isNote = true → Entry s [e]
  | scheduled {e : EventRow} : e.booking.isSome → Entry s [e]
  | fanOut {m : EventRow} {es : List EventRow} {nodes : List String} {round : Int} :
      m.announces s = some (nodes, round) → (m.eventType = .forEachFannedOut → nodes ≠ []) →
      es.map (fun e => e.booking.map Prod.snd) = nodes.map (fun id => some (id, round)) → Entry s (m :: es)
  | idle {m : EventRow} {join : WorkflowNode} {arrived round : Int} : m.announces s = some ([], round) →
      m.str "join_node" = some join.id → findNode s.nodes join.id = some join → 0 ≤ arrived →
      (join.joinStrategy.getD .waitAll).isSatisfied arrived 0 = false → Entry s [m]
  | fired {x e : EventRow} {join : String} {round : Int} : x.reachesJoin join round = true →
      (x.eventType = .forEachFannedOut → x.announces s = some ([], round)) →
      e.firesJoin join round = true → Entry s [x, e]
  | rework {b e : EventRow} {id : Uuid} : b.booking.map Prod.fst = some id →
      e.eventType = .returnedToRework → e.str "activity_id" = some id → Entry s [b, e]

def ActivityRow.booking (a : ActivityRow) : Uuid × String × Int := (a.id, a.activityDefinitionId, a.round)

/-- The scheduled events of the log are the activity rows, in order. -/
def InstanceRows.Booked (r : InstanceRows) : Prop :=
  r.events.filterMap EventRow.booking = r.activities.map ActivityRow.booking

/-- A step that writes whole entries, and books what it schedules. -/
structure Writes (r r' : InstanceRows) : Prop where
  snapshot : r'.snapshot = r.snapshot
  entries : ∃ new, r'.events = r.events ++ new ∧ Blocks (Entry r.snapshot) new
  booked : r.Booked → r'.Booked

theorem firesJoin_fired (seq : Int) (now : Time) (join : String) (arrived expected round : Int) :
    EventRow.firesJoin ⟨seq, .parallelJoinSatisfied, joinSatisfiedPayload join arrived expected round, none, now⟩
      join round = true := by
  have hjoin : pstr (joinSatisfiedPayload join arrived expected round) "join_node" = some join := rfl
  have hround : ((joinSatisfiedPayload join arrived expected round).get "round").bind Json.asI64 = some round :=
    rfl
  simp [EventRow.firesJoin, EventRow.str, EventRow.int, hjoin, hround]

namespace Writes
variable {r r₁ r₂ r₃ r' : InstanceRows}

theorem refl (r : InstanceRows) : Writes r r := ⟨rfl, ⟨[], by simp, .nil⟩, fun h => h⟩

theorem trans (h : Writes r₁ r₂) (k : Writes r₂ r₃) : Writes r₁ r₃ := by
  obtain ⟨new, hnew, hblocks⟩ := h.entries
  obtain ⟨new', hnew', hblocks'⟩ := k.entries
  rw [h.snapshot] at hblocks'
  exact ⟨k.snapshot.trans h.snapshot,
    ⟨new ++ new', by rw [hnew', hnew, List.append_assoc], hblocks.append hblocks'⟩,
    fun hb => k.booked (h.booked hb)⟩

/-- No event, and activity rows that keep their ids, nodes and rounds. -/
theorem silent (hsnapshot : r'.snapshot = r.snapshot) (hevents : r'.events = r.events)
    (hrows : r'.activities.map ActivityRow.booking = r.activities.map ActivityRow.booking) : Writes r r' :=
  ⟨hsnapshot, ⟨[], by simpa using hevents, .nil⟩,
    fun hb => by rw [InstanceRows.Booked, hevents, hrows]; exact hb⟩

theorem updateTimers (r : InstanceRows) (p : TimerRow → Bool) (s : TimerStatus) :
    Writes r (r.updateTimers p s) := silent rfl rfl rfl

theorem updateActivities (r : InstanceRows) (p : ActivityRow → Bool) (f : ActivityRow → ActivityRow)
    (hf : ∀ a, (f a).booking = a.booking) : Writes r (r.updateActivities p f) :=
  silent rfl rfl (map_updateWhere hf r.activities)

/-- One entry that schedules nothing. -/
theorem entry {es : List EventRow} (hsnapshot : r'.snapshot = r.snapshot)
    (hevents : r'.events = r.events ++ es) (hentry : Entry r.snapshot es)
    (hnone : ∀ e ∈ es, e.eventType ≠ .activityScheduled) (hrows : r'.activities = r.activities) :
    Writes r r' := by
  refine ⟨hsnapshot, ⟨es, hevents, .single hentry⟩, fun hb => ?_⟩
  have hes : es.filterMap EventRow.booking = [] :=
    List.filterMap_eq_nil_iff.2 fun e he => EventRow.booking_of_ne (hnone e he)
  rw [InstanceRows.Booked, hevents, List.filterMap_append, hes, List.append_nil, hrows]
  exact hb

theorem log (r : InstanceRows) (now : Time) {t : EventType} (p : Json) (k : Option String)
    (ht : t.isNote = true) : Writes r (r.log now t p k) := by
  refine entry rfl rfl (.note ht) (fun e he => ?_) rfl
  rw [List.mem_singleton.1 he]
  rintro rfl
  cases ht

theorem passMerges (r : InstanceRows) (now : Time) (f : String) (n : Int) (ms : List String) :
    Writes r (r.passMerges now f n ms) :=
  InstanceRows.passMerges_induction ms (refl r) fun r' p hr => hr.trans (log r' now p none rfl)

theorem clearCurrent (r : InstanceRows) : Writes r r.clearCurrent := silent rfl rfl rfl

theorem pointTo (r : InstanceRows) (id : Uuid) : Writes r (r.pointTo id) := by
  unfold InstanceRows.pointTo
  split
  · exact silent rfl rfl rfl
  · exact refl r

theorem finish (r : InstanceRows) (now : Time) (result : WorkflowResult) : Writes r (r.finish now result) :=
  silent rfl rfl rfl

theorem errorOut (r : InstanceRows) : Writes r r.errorOut := by
  unfold InstanceRows.errorOut
  split
  · exact silent rfl rfl rfl
  · exact refl r

theorem enqueueOutbox (r : InstanceRows) (o : OutboxRow) : Writes r (r.enqueueOutbox o) := by
  unfold InstanceRows.enqueueOutbox
  split
  · exact refl r
  · exact silent rfl rfl rfl

theorem skipOthers (r : InstanceRows) (exclude : Uuid) : Writes r (r.skipOthers exclude) :=
  (updateTimers r _ .cancelled).trans
    (updateActivities _ (ActivityRow.isOtherActive exclude) ActivityRow.skip fun _ => rfl)

theorem skipRemaining (r : InstanceRows) (now : Time) (join : WorkflowNode) (exclude : Uuid) :
    Writes r (r.skipRemaining now join exclude) := by
  unfold InstanceRows.skipRemaining
  dsimp only
  split
  · exact (skipOthers r exclude).trans (log _ now _ none rfl)
  · exact skipOthers r exclude

/-- A join is looked at and fires. -/
theorem fire (r : InstanceRows) {now : Time} {t : EventType} {p : Json} {join : WorkflowNode} {round : Int}
    (arrived expected : Int) (exclude : Option Uuid)
    (hx : EventRow.reachesJoin ⟨r.nextSeq, t, p, none, now⟩ join.id round = true)
    (hempty : t = .forEachFannedOut →
      EventRow.announces ⟨r.nextSeq, t, p, none, now⟩ r.snapshot = some ([], round)) :
    Writes r ((r.log now t p none).fire now join round arrived expected exclude) := by
  have hfired : Writes r ((r.log now t p none).log now .parallelJoinSatisfied
      (joinSatisfiedPayload join.id arrived expected round) none) := by
    refine entry rfl (List.append_assoc r.events [_] [_]) (.fired hx hempty (firesJoin_fired ..)) ?_ rfl
    intro e he
    rcases List.mem_cons.1 he with rfl | he
    · rintro rfl
      simp [EventRow.reachesJoin] at hx
    · rw [List.mem_singleton.1 he]
      nofun
  unfold InstanceRows.fire
  dsimp only
  split
  · exact hfired.trans (skipRemaining ..)
  · exact hfired

end Writes

/-- A step whose new events all have a type with `p`. -/
def Adds (p : EventType → Bool) (r r' : InstanceRows) : Prop :=
  ∃ new, r'.events = r.events ++ new ∧ ∀ e ∈ new, p e.eventType = true

namespace Adds
variable {p : EventType → Bool} {r r₁ r₂ r₃ : InstanceRows}

theorem same {r' : InstanceRows} (h : r'.events = r.events) : Adds p r r' := ⟨[], by simpa using h, by simp⟩

theorem trans (h : Adds p r₁ r₂) (k : Adds p r₂ r₃) : Adds p r₁ r₃ := by
  obtain ⟨new, hnew, hall⟩ := h
  obtain ⟨new', hnew', hall'⟩ := k
  refine ⟨new ++ new', by rw [hnew', hnew, List.append_assoc], fun e he => ?_⟩
  exact (List.mem_append.1 he).elim (hall e) (hall' e)

theorem one {r' : InstanceRows} {e : EventRow} (h : r'.events = r.events ++ [e]) (he : p e.eventType = true) :
    Adds p r r' :=
  ⟨[e], h, fun x hx => by rw [List.mem_singleton.1 hx]; exact he⟩

theorem log (r : InstanceRows) (now : Time) {t : EventType} (payload : Json) (k : Option String)
    (ht : p t = true) : Adds p r (r.log now t payload k) := one rfl ht

theorem passMerges (r : InstanceRows) (now : Time) (f : String) (n : Int) (ms : List String)
    (hp : p .mergePassed = true) : Adds p r (r.passMerges now f n ms) :=
  InstanceRows.passMerges_induction ms (same rfl) fun r' payload hr => hr.trans (log r' now payload none hp)

theorem skipRemaining (r : InstanceRows) (now : Time) (join : WorkflowNode) (exclude : Uuid)
    (hp : p .activitySkipped = true) : Adds p r (r.skipRemaining now join exclude) := by
  unfold InstanceRows.skipRemaining
  dsimp only
  split
  · exact (same (r := r) rfl).trans (log _ now _ none hp)
  · exact same rfl

theorem fire (r : InstanceRows) (now : Time) (join : WorkflowNode) (round arrived expected : Int)
    (exclude : Option Uuid) (hfired : p .parallelJoinSatisfied = true) (hskip : p .activitySkipped = true) :
    Adds p r (r.fire now join round arrived expected exclude) := by
  unfold InstanceRows.fire
  dsimp only
  split
  · exact (log r now _ none hfired).trans (skipRemaining _ now join _ hskip)
  · exact log r now _ none hfired

theorem timerFired (r : InstanceRows) (now : Time) (t : TimerRow) (id : Uuid) (nodeId : String)
    (hp : p .timerFired = true) : Adds p r (r.timerFired now t id nodeId) := one rfl hp

theorem completeActivity (r : InstanceRows) (now : Time) (id : Uuid) (result : Option String) (actor : Int)
    (notes : Option String) (payload : Json) (hp : p .activityCompleted = true) :
    Adds p r (r.completeActivity now id result actor notes payload) := one rfl hp

theorem resume (r : InstanceRows) (now : Time) (a : ActivityInstance) (hp : p .reworkResumed = true) :
    Adds p r (r.resume now a) := by
  unfold InstanceRows.resume
  split
  · exact one rfl hp
  · exact same rfl

theorem resolve (r : InstanceRows) (now : Time) (cmd : SignalCommand) (a : ActivityInstance)
    (hsignal : p .signalReceived = true) (hcomplete : p .activityCompleted = true)
    (hresume : p .reworkResumed = true) : Adds p r (r.resolve now cmd a) :=
  ((log r now _ _ hsignal).trans (completeActivity _ now _ _ _ _ _ hcomplete)).trans (resume _ now a hresume)

end Adds

section
variable {env : Env} {ctx : InstanceCtx} {tenantId : Int} {node : WorkflowNode} {role : Option String}
  {round : Int} {fanout : Option FanoutMark} {row : ActivityRow} {r r' : InstanceRows}

/-- The event of a scheduled activity books its row. -/
theorem Scheduled.booking (h : Scheduled env tenantId node role round fanout r row r') :
    ∃ e, r'.events = r.events ++ [e] ∧ e.booking = some row.booking := by
  refine ⟨_, h.events, ?_⟩
  rw [h.row_eq]
  rfl

theorem Scheduled.writes (h : Scheduled env tenantId node role round fanout r row r') : Writes r r' := by
  obtain ⟨e, he, hb⟩ := h.booking
  refine ⟨h.snapshot, ⟨[e], he, .single (.scheduled (by rw [hb]; rfl))⟩, fun hbooked => ?_⟩
  rw [InstanceRows.Booked, he, List.filterMap_append, h.activities, List.map_append, hbooked]
  simp [hb]

/-- The branches of a fan-out, as rows and as events. -/
theorem Branches.booking {via : String} {targets : List ParallelTarget} {rows : List ActivityRow}
    (h : Branches env ctx round via targets r rows r') :
    r'.snapshot = r.snapshot ∧ r'.activities = r.activities ++ rows ∧
      rows.map (fun a => a.booking.2) = targets.map (fun t => (t.nodeId, round)) ∧
      ∃ es, r'.events = r.events ++ es ∧ es.map EventRow.booking = rows.map fun a => some a.booking := by
  induction h with
  | nil => exact ⟨rfl, by simp, rfl, [], by simp, rfl⟩
  | cons hnode hsched _ ih =>
    obtain ⟨e, he, hb⟩ := hsched.booking
    obtain ⟨hsnapshot, hrows, hplaces, es, hes, hbs⟩ := ih
    refine ⟨hsnapshot.trans hsched.snapshot, ?_, ?_, e :: es, ?_, by simp [hb, hbs]⟩
    · rw [hrows, hsched.activities, List.append_assoc]
      rfl
    · rw [List.map_cons, List.map_cons, hplaces, ← (InstanceCtx.node_ok hnode).2, hsched.row_eq]
      rfl
    · rw [hes, he, List.append_assoc]
      rfl

/-- A fan-out writes its marker and its branches as one entry. -/
theorem Branches.writes {via : String} {targets : List ParallelTarget} {rows : List ActivityRow} {now : Time}
    {t : EventType} {p : Json}
    (hannounces : EventRow.announces ⟨r.nextSeq, t, p, none, now⟩ r.snapshot =
      some (targets.map ParallelTarget.nodeId, round))
    (hnonempty : t = .forEachFannedOut → targets ≠ [])
    (h : Branches env ctx round via targets (r.log now t p none) rows r') : Writes r r' := by
  obtain ⟨hsnapshot, hrows, hplaces, es, hes, hbs⟩ := h.booking
  have hentry : Entry r.snapshot (⟨r.nextSeq, t, p, none, now⟩ :: es) := by
    refine .fanOut hannounces (fun ht => by simpa using hnonempty ht) ?_
    have hes : es.map (fun e => e.booking.map Prod.snd) = (es.map EventRow.booking).map (Option.map Prod.snd) := by
      simp
    have hps := congrArg (List.map some) hplaces
    simp only [List.map_map] at hps
    rw [hes, hbs]
    simpa [Function.comp_def] using hps
  have hmarker : EventRow.booking ⟨r.nextSeq, t, p, none, now⟩ = none := by
    refine EventRow.booking_of_ne ?_
    rintro rfl
    simp [EventRow.announces] at hannounces
  refine ⟨hsnapshot, ⟨_ :: es, by rw [hes]; exact List.append_assoc .., .single hentry⟩, fun hbooked => ?_⟩
  have hfilter : es.filterMap EventRow.booking = rows.map ActivityRow.booking := by
    have : es.filterMap EventRow.booking = (es.map EventRow.booking).filterMap id := by
      rw [List.filterMap_map]
      rfl
    rw [this, hbs, List.filterMap_map]
    simp
  have hevents : r'.events = r.events ++ ([⟨r.nextSeq, t, p, none, now⟩] ++ es) := by
    rw [hes, ← List.append_assoc]
    rfl
  rw [InstanceRows.Booked, hevents, hrows, List.filterMap_append, List.filterMap_append, hfilter,
    List.map_append]
  have hb : r.events.filterMap EventRow.booking = r.activities.map ActivityRow.booking := hbooked
  rw [hb]
  simp [hmarker, InstanceRows.log, InstanceRows.appendEvent]

end

section
variable {svc : WorkflowService} {env : Env} {ctx : InstanceCtx} {source : ActivityInstance} {round : Int}

private theorem forEachTargets_nodes {cel : Cel} {nodes : List WorkflowNode} {context : Option Json}
    {path template : String} {cap : Option Int} {targets : List ParallelTarget}
    (h : forEachTargets cel nodes context path template cap = some targets) :
    targets.map ParallelTarget.nodeId = List.replicate targets.length template := by
  unfold forEachTargets at h
  split at h
  · cases h
  · split at h
    · cases h
    · simp only [Option.bind_eq_bind, Option.bind_eq_some_iff, Option.some.injEq] at h
      obtain ⟨node, -, activityType, -, rfl⟩ := h
      refine List.eq_replicate_iff.2 ⟨by simp, fun id hid => ?_⟩
      obtain ⟨t, ht, rfl⟩ := List.mem_map.1 hid
      obtain ⟨i, hi, rfl⟩ := List.mem_mapIdx.1 ht
      rfl

private theorem announces_forEach {s : DefinitionSnapshot} {fan : ForEachFanOut} {node : WorkflowNode}
    {path template : String} {cap : Option Int} (seq : Int) (now : Time) (count : Nat)
    (hnode : findNode s.nodes fan.forEachNode = some node)
    (hfor : node.forEach = some (path, template, fan.joinTarget, cap)) :
    EventRow.announces ⟨seq, .forEachFannedOut, forEachFannedOutPayload fan count round, none, now⟩ s =
      some (List.replicate count template, round) := by
  have hid : pstr (forEachFannedOutPayload fan count round) "for_each_node" = some fan.forEachNode := rfl
  have hjoin : pstr (forEachFannedOutPayload fan count round) "join_node" = some fan.joinTarget := rfl
  have hcount : ((forEachFannedOutPayload fan count round).get "branch_count").bind Json.asI64 =
      some (count : Int) := rfl
  have hround : ((forEachFannedOutPayload fan count round).get "round").bind Json.asI64 = some round := rfl
  simp [EventRow.announces, EventRow.str, EventRow.int, hid, hjoin, hcount, hround, hnode, hfor]

/-- A split's marker names the targets it scheduled. -/
theorem branchTargets_split (seq : Int) (now : Time) (id : String) (targets : List ParallelTarget) (round : Int) :
    EventRow.branchTargets ⟨seq, .parallelSplitScheduled, splitScheduledPayload id targets round, none, now⟩ =
      some (targets.map ParallelTarget.nodeId) := by
  have htargets : (splitScheduledPayload id targets round).get "branch_targets" =
      some (.arr (targets.map fun t => .str t.nodeId)) := rfl
  have hmap : ∀ ts : List ParallelTarget,
      (ts.map fun t => Json.str t.nodeId).mapM Json.asStr = some (ts.map ParallelTarget.nodeId) := by
    intro ts
    induction ts with
    | nil => rfl
    | cons t ts ih => simp [ih]
  simp [EventRow.branchTargets, htargets, hmap]

private theorem announces_split {s : DefinitionSnapshot} (seq : Int) (now : Time) (id : String)
    (targets : List ParallelTarget) :
    EventRow.announces ⟨seq, .parallelSplitScheduled, splitScheduledPayload id targets round, none, now⟩ s =
      some (targets.map ParallelTarget.nodeId, round) := by
  have hround : ((splitScheduledPayload id targets round).get "round").bind Json.asI64 = some round := rfl
  simp [EventRow.announces, branchTargets_split, EventRow.int, hround]

/-- The marker of a fan-out announces its targets. -/
theorem announces_marker {targets : List ParallelTarget} {trace : ResolveTrace} (seq : Int) (now : Time)
    (h : Resolved svc.cel ctx.snapshot.nodes ctx.context (.advanceMulti targets) trace) :
    EventRow.announces ⟨seq, (fanOutMarker source round trace targets).1,
        (fanOutMarker source round trace targets).2, none, now⟩ ctx.snapshot =
      some (targets.map ParallelTarget.nodeId, round) := by
  cases h with
  | split _ _ _ htrace =>
    simp only [fanOutMarker, htrace]
    exact announces_split ..
  | forEach hnode hfor htargets htrace =>
    simp only [fanOutMarker, htrace]
    rw [forEachTargets_nodes htargets]
    exact announces_forEach _ _ _ hnode hfor

private theorem announces_empty {fan : ForEachFanOut} {trace : ResolveTrace} (seq : Int) (now : Time)
    (hfan : trace.forEachFanOut = some fan)
    (hdecided : Decided svc.cel ctx.snapshot.nodes ctx.context (.advanceMulti []) trace) :
    EventRow.announces ⟨seq, .forEachFannedOut, forEachFannedOutPayload fan 0 round, none, now⟩ ctx.snapshot =
      some ([], round) := by
  cases hdecided.resolve_right (by simp) with
  | split _ _ _ htrace => rw [hfan] at htrace; cases htrace
  | forEach hnode hfor _ htrace =>
    rw [hfan] at htrace
    cases htrace
    exact announces_forEach seq now 0 hnode hfor

/-- What leads to an evaluation of a join ends with the event that says so. -/
theorem Reaches.writes {outcome : AdvanceOutcome} {trace : ResolveTrace} {r r₁ : InstanceRows}
    {join : WorkflowNode} {exclude : Option Uuid}
    (h : Reaches env ctx source round outcome trace r join exclude r₁)
    (hdecided : Decided svc.cel ctx.snapshot.nodes ctx.context outcome trace) :
    ∃ r₀ t p, r₁ = r₀.log env.now t p none ∧ Writes r r₀ ∧
      EventRow.reachesJoin ⟨r₀.nextSeq, t, p, none, env.now⟩ join.id round = true ∧
      (t = .forEachFannedOut →
        EventRow.announces ⟨r₀.nextSeq, t, p, none, env.now⟩ ctx.snapshot = some ([], round)) := by
  cases h with
  | arrive =>
    refine ⟨_, .branchReachedJoin, branchReachedPayload source.activityDefinitionId join.id round, rfl,
      .passMerges .., ?_, nofun⟩
    have hjoin : pstr (branchReachedPayload source.activityDefinitionId join.id round) "join_node" =
        some join.id := rfl
    have hround : ((branchReachedPayload source.activityDefinitionId join.id round).get "round").bind
        Json.asI64 = some round := rfl
    simp [EventRow.reachesJoin, EventRow.str, EventRow.int, hjoin, hround]
  | @emptyFanOut trace fan r join hfan hjoin =>
    refine ⟨(r.passMerges env.now source.activityDefinitionId round trace.mergesPassed).clearCurrent,
      .forEachFannedOut, forEachFannedOutPayload fan 0 round, ?_, (Writes.passMerges ..).trans (.clearCurrent _), ?_,
      fun _ => announces_empty _ _ hfan hdecided⟩
    · simp [fanOutRows, fanOutMarker, hfan]
    · have hid : pstr (forEachFannedOutPayload fan 0 round) "join_node" = some join.id := by
        rw [(InstanceCtx.node_ok hjoin).2]
        rfl
      have hcount : ((forEachFannedOutPayload fan 0 round).get "branch_count").bind Json.asI64 = some 0 := rfl
      have hround : ((forEachFannedOutPayload fan 0 round).get "round").bind Json.asI64 = some round := rfl
      simp [EventRow.reachesJoin, EventRow.str, EventRow.int, hid, hcount, hround]

/-- The latest for-each fan-out into a join counts. -/
theorem forEachBranchCount_log (r : InstanceRows) (now : Time) (fan : ForEachFanOut) (count : Nat) (round : Int) :
    (r.log now .forEachFannedOut (forEachFannedOutPayload fan count round) none).forEachBranchCount fan.joinTarget
      round = .ok (some (count : Int)) := by
  have hinto : InstanceRows.isFanOutInto fan.joinTarget round
      ⟨r.nextSeq, .forEachFannedOut, forEachFannedOutPayload fan count round, none, now⟩ = true := by
    have hjoin : ((forEachFannedOutPayload fan count round).get "join_node").bind Json.asStr =
        some fan.joinTarget := rfl
    have hround : ((forEachFannedOutPayload fan count round).get "round").bind Json.asI64 = some round := rfl
    simp [InstanceRows.isFanOutInto, hjoin, hround]
  unfold InstanceRows.forEachBranchCount
  simp only [InstanceRows.log, InstanceRows.appendEvent, List.reverse_append, List.reverse_singleton,
    List.singleton_append, List.find?_cons, hinto]
  rfl

/-- Where a join is looked at and keeps waiting, whole entries were written. -/
theorem Reaches.writes_waiting {outcome : AdvanceOutcome} {trace : ResolveTrace} {r r₁ : InstanceRows}
    {join : WorkflowNode} {exclude : Option Uuid} {arrived expected : Int}
    (h : Reaches env ctx source round outcome trace r join exclude r₁)
    (hsnapshot : ctx.snapshot = r.snapshot)
    (hdecided : Decided svc.cel ctx.snapshot.nodes ctx.context outcome trace)
    (hcounts : JoinCounts ctx.snapshot r₁ join.id round arrived expected)
    (hwait : (join.joinStrategy.getD .waitAll).isSatisfied arrived expected = false) : Writes r r₁ := by
  cases h with
  | arrive => exact (Writes.passMerges ..).trans (.log _ _ _ none rfl)
  | @emptyFanOut trace fan r join hfan hjoin =>
    obtain ⟨hfind, hid⟩ := InstanceCtx.node_ok hjoin
    obtain ⟨r₀, hmoves, hrows⟩ : ∃ r₀, Writes r r₀ ∧ fanOutRows env source round trace [] r =
        r₀.log env.now .forEachFannedOut (forEachFannedOutPayload fan 0 round) none :=
      ⟨_, (Writes.passMerges r env.now source.activityDefinitionId round trace.mergesPassed).trans
        (.clearCurrent _), by simp [fanOutRows, fanOutMarker, hfan]⟩
    rw [hrows] at hcounts ⊢
    obtain ⟨dynamic, ids, hdynamic, hexpected, rfl⟩ := hcounts
    rw [hid, forEachBranchCount_log] at hdynamic
    cases hdynamic
    obtain rfl : expected = 0 := by
      unfold WorkflowService.branchExpectation at hexpected
      dsimp only at hexpected
      split at hexpected
      · cases hexpected; rfl
      · cases hexpected
    have hannounces : EventRow.announces ⟨r₀.nextSeq, .forEachFannedOut, forEachFannedOutPayload fan 0 round, none,
        env.now⟩ ctx.snapshot = some ([], round) := announces_empty _ _ hfan hdecided
    rw [hsnapshot, ← hmoves.snapshot] at hannounces hfind
    rw [← hid] at hfind
    refine hmoves.trans (.entry rfl rfl (.idle hannounces ?_ hfind (Int.natCast_nonneg _) hwait) ?_ rfl)
    · rw [hid]
      rfl
    · intro e he
      rw [List.mem_singleton.1 he]
      simp

/-- An applied outcome writes whole entries. -/
theorem Applied.writes {outcome : AdvanceOutcome} {trace : ResolveTrace} {r r' : InstanceRows}
    (h : Applied env ctx source round svc outcome trace r r') (hsnapshot : ctx.snapshot = r.snapshot)
    (hdecided : Decided svc.cel ctx.snapshot.nodes ctx.context outcome trace) : Writes r r' := by
  induction h with
  | schedule _ _ hsched => exact ((Writes.passMerges ..).trans hsched.writes).trans (.pointTo ..)
  | @fan targets trace r r₁ rows hnonempty hbranches =>
    have hres := hdecided.resolve_right (by simp)
    have hmoves : Writes r _ :=
      (Writes.passMerges r env.now source.activityDefinitionId round trace.mergesPassed).trans (.clearCurrent _)
    refine hmoves.trans (Branches.writes ?_ ?_ hbranches)
    · rw [hmoves.snapshot, ← hsnapshot]
      exact announces_marker _ _ hres
    · intro ht
      cases hfan : trace.forEachFanOut with
      | none => simp [fanOutMarker, hfan] at ht
      | some fan => exact hnonempty (by rw [hfan]; rfl)
  | wait hreach hcounts hwait =>
    exact (hreach.writes_waiting hsnapshot hdecided hcounts hwait).trans (.clearCurrent _)
  | @fire outcome trace r r₁ r₂ join exclude arrived expected hreach _ _ _ ih =>
    obtain ⟨r₀, t, p, rfl, hwrites, hx, hannounces⟩ := hreach.writes hdecided
    have hfire : Writes r _ := hwrites.trans (.fire r₀ arrived expected exclude hx (by
      rw [hwrites.snapshot, ← hsnapshot]
      exact hannounces))
    exact hfire.trans (ih (hsnapshot.trans hfire.snapshot.symm) (decideAdvance_decided ..))
  | complete _ hr₁ _ =>
    subst hr₁
    exact (((Writes.passMerges ..).trans (.finish ..)).trans (.log _ _ _ none rfl)).trans (.silent rfl rfl rfl)
  | @rework target role trace r r₁ node row _ _ _ hsched =>
    obtain ⟨e, he, hb⟩ := hsched.booking
    have hid : e.booking.map Prod.fst = some row.id := by
      rw [hb]
      rfl
    refine (Writes.passMerges ..).trans ⟨hsched.snapshot, ⟨[e, _], (congrArg (· ++ _) he).trans (List.append_assoc ..),
      .single (.rework hid rfl ?_)⟩, fun hbooked => ?_⟩
    · simp [EventRow.str, returnedToReworkPayload, pstr, Json.get, List.lookup_cons]
    · have hbooked := hsched.writes.booked hbooked
      rw [InstanceRows.Booked] at hbooked ⊢
      rw [InstanceRows.log, InstanceRows.appendEvent, List.filterMap_append]
      simpa [EventRow.booking, InstanceRows.enterWaiting, InstanceRows.updateInstance] using hbooked
  | error => exact ((Writes.passMerges ..).trans (.errorOut _)).trans (.log _ _ _ none rfl)

namespace Writes
variable (r : InstanceRows) (now : Time)

theorem updateInstance (f : WorkflowInstance → WorkflowInstance) : Writes r (r.updateInstance f) :=
  silent rfl rfl rfl

theorem fireTimer (id : Uuid) : Writes r (r.fireTimer id) := updateTimers ..

theorem timerFired (t : TimerRow) (id : Uuid) (nodeId : String) : Writes r (r.timerFired now t id nodeId) :=
  (fireTimer r t.id).trans (log _ now _ none rfl)

theorem assign (cmd : SignalCommand) (id : Uuid) : Writes r (r.assign now cmd id) :=
  (updateActivities r _ (fun a => { a with assigneeId := cmd.assigneeId }) fun _ => rfl).trans
    (log _ now _ _ rfl)

theorem escalate (a : ActivityInstance) (role : String) : Writes r (r.escalate now a role) :=
  (updateActivities r _ (fun a => { a with assigneeRole := some role }) fun _ => rfl).trans
    (log _ now _ none rfl)

theorem reactivate (round : Int) (key : String) : Writes r (r.reactivate now round key) :=
  (updateInstance ..).trans (log _ now _ _ rfl)

theorem completeActivity (id : Uuid) (result : Option String) (actor : Int) (notes : Option String)
    (payload : Json) : Writes r (r.completeActivity now id result actor notes payload) :=
  ((updateActivities r _ (ActivityRow.complete _ _ _ _) fun _ => rfl).trans (updateTimers ..)).trans
    (log _ now _ none rfl)

theorem timeOutActivity (id : Uuid) : Writes r (r.timeOutActivity now id) :=
  ((updateActivities r _ ActivityRow.skip fun _ => rfl).trans (updateTimers ..)).trans (log _ now _ none rfl)

theorem resume (a : ActivityInstance) : Writes r (r.resume now a) := by
  unfold InstanceRows.resume
  split
  · exact (updateInstance ..).trans (log _ now _ none rfl)
  · exact refl r

theorem resolve (cmd : SignalCommand) (a : ActivityInstance) : Writes r (r.resolve now cmd a) :=
  ((log r now _ _ rfl).trans (completeActivity ..)).trans (resume ..)

end Writes

theorem ContextWritten.writes {node : WorkflowNode} {patch : Option Json} {ctx' : InstanceCtx}
    {r r' : InstanceRows} (h : ContextWritten env node round patch ctx r ctx' r') : Writes r r' := by
  cases h with
  | none => exact .refl r
  | merged => exact (Writes.updateInstance ..).trans (.log _ _ _ _ rfl)

/-- Every call writes whole entries. -/
theorem Effect.writes {call : Call} {r r' : InstanceRows} (h : Effect svc env call r r') : Writes r r' := by
  cases h with
  | nothing => exact .refl r
  | assignee => exact .assign ..
  | @advance cmd _ r₁ _ row _ ctx _ _ _ _ _ _ _ hctx happly =>
    have hbefore := hctx.writes.trans (.resolve r₁ env.now cmd (row.intoModel r.inst.id))
    exact hbefore.trans (happly.writes (hctx.snapshot.trans hbefore.snapshot.symm) (decideAdvance_decided ..))
  | reenter _ _ _ _ _ _ hsched =>
    exact ((Writes.reactivate ..).trans hsched.writes).trans (.pointTo ..)
  | timerGone => exact .fireTimer ..
  | reminder => exact (Writes.timerFired ..).trans (.enqueueOutbox ..)
  | escalationGone => exact .timerFired ..
  | escalated => exact ((Writes.timerFired ..).trans (.escalate ..)).trans (.enqueueOutbox ..)
  | @timedOut t _ _ row node _ _ _ _ _ _ _ happly =>
    have hbefore : Writes r _ :=
      (Writes.timerFired r env.now t row.id node.id).trans (.timeOutActivity _ env.now row.id)
    exact hbefore.trans (happly.writes hbefore.snapshot.symm (.inl (decideEventWaitTimeout_resolved _)))
  | @delivered _ _ row _ _ _ _ happly =>
    have hbefore : Writes r _ := .completeActivity r env.now row.id none 0 none (deliveredPayload row.id)
    exact hbefore.trans (happly.writes hbefore.snapshot.symm (decideAdvance_decided ..))
  | callback => exact .updateInstance ..
  | deadLetter => exact .log _ _ _ none rfl

end

section
variable {env : Env} {ctx : InstanceCtx} {source : ActivityInstance} {round : Int}

theorem pointTo_events (r : InstanceRows) (id : Uuid) : (r.pointTo id).events = r.events := by
  unfold InstanceRows.pointTo
  split <;> rfl

theorem enqueueOutbox_events (r : InstanceRows) (o : OutboxRow) :
    (r.enqueueOutbox o).events = r.events := by
  unfold InstanceRows.enqueueOutbox
  split <;> rfl

theorem errorOut_events (r : InstanceRows) : r.errorOut.events = r.events := by
  unfold InstanceRows.errorOut
  split <;> rfl

theorem Scheduled.adds {p : EventType → Bool} {tenantId : Int} {node : WorkflowNode}
    {role : Option String} {fanout : Option FanoutMark} {row : ActivityRow} {r r' : InstanceRows}
    (h : Scheduled env tenantId node role round fanout r row r') (hp : p .activityScheduled = true) :
    Adds p r r' := .one h.events hp

theorem Branches.adds {p : EventType → Bool} {via : String} {targets : List ParallelTarget}
    {rows : List ActivityRow} {r r' : InstanceRows} (h : Branches env ctx round via targets r rows r')
    (hp : p .activityScheduled = true) : Adds p r r' := by
  induction h with
  | nil => exact .same rfl
  | cons _ hsched _ ih => exact (hsched.adds hp).trans ih

theorem Reaches.adds {p : EventType → Bool} {outcome : AdvanceOutcome} {trace : ResolveTrace}
    {r r₁ : InstanceRows} {join : WorkflowNode} {exclude : Option Uuid}
    (h : Reaches env ctx source round outcome trace r join exclude r₁) (hmerge : p .mergePassed = true)
    (hreach : p .branchReachedJoin = true) (hfan : p .forEachFannedOut = true) : Adds p r r₁ := by
  cases h with
  | arrive => exact (Adds.passMerges _ _ _ _ _ hmerge).trans (.one rfl hreach)
  | emptyFanOut htrace _ =>
    refine (Adds.passMerges r env.now source.activityDefinitionId round _ hmerge).trans (.one rfl ?_)
    simpa [fanOutMarker, htrace] using hfan

end

/-- The log of one instance: whole entries, and its scheduled events are its activity rows. -/
structure InstanceRows.Logged (r : InstanceRows) : Prop where
  entries : Blocks (Entry r.snapshot) r.events
  booked : r.Booked

theorem Writes.logged {r r' : InstanceRows} (h : Writes r r') (hr : r.Logged) : r'.Logged := by
  obtain ⟨new, hnew, hblocks⟩ := h.entries
  exact ⟨by rw [hnew, h.snapshot]; exact hr.entries.append hblocks, h.booked hr.booked⟩

theorem Started.logged {svc : WorkflowService} {env : Env} {supply : Supply} {cmd : StartCommand}
    {r : InstanceRows} (h : Started svc env supply cmd r) : r.Logged := by
  obtain ⟨entryId, entryRole, node, row, r₁, -, -, hsched, rfl⟩ := h.rows
  have hwrites : Writes (insertedRows supply cmd) (r₁.pointTo row.id) :=
    ((Writes.log _ _ _ none rfl).trans hsched.writes).trans (.pointTo ..)
  exact hwrites.logged ⟨.nil, rfl⟩

/-- The rows in a reachable store keep the grammar. -/
theorem logged_of_reachable {svc : WorkflowService} {store : Store} (h : (engine svc).Reachable store) :
    ∀ r ∈ store, r.Logged :=
  rows_invariant (fun _ _ _ _ hstarted => hstarted.logged)
    (fun _ _ _ _ _ hr heffect => heffect.writes.logged hr) h

section
variable {pre post : List EventRow} {e : EventRow}

private theorem type_of_fires {join : String} {round : Int} (h : e.firesJoin join round = true) :
    e.eventType = .parallelJoinSatisfied ∧ e.str "join_node" = some join ∧ e.int "round" = some round := by
  simpa [EventRow.firesJoin, and_assoc] using h

private theorem type_of_reaches {join : String} {round : Int} (h : e.reachesJoin join round = true) :
    e.eventType = .branchReachedJoin ∨ e.eventType = .forEachFannedOut := by
  simp only [EventRow.reachesJoin, Bool.and_eq_true, Bool.or_eq_true, beq_iff_eq] at h
  exact h.1.1.imp id And.left

theorem type_of_announces {s : DefinitionSnapshot} {x : List String × Int} (h : e.announces s = some x) :
    e.eventType = .parallelSplitScheduled ∨ e.eventType = .forEachFannedOut := by
  unfold EventRow.announces at h
  split at h
  · next ht => exact .inl ht
  · next ht => exact .inr ht
  · cases h

private theorem two_of_append {u v : List EventRow} {x y : EventRow} (h : u ++ e :: v = [x, y]) :
    (u = [] ∧ e = x ∧ v = [y]) ∨ (u = [x] ∧ e = y ∧ v = []) := by
  match u, h with
  | [], h => exact .inl ⟨rfl, (List.cons.inj h).1, (List.cons.inj h).2⟩
  | [z], h =>
    obtain ⟨rfl, hrest⟩ := List.cons.inj h
    exact .inr ⟨rfl, (List.cons.inj hrest).1, (List.cons.inj hrest).2⟩
  | y :: z :: u, h => simp at h

private theorem one_of_append {u v : List EventRow} {x : EventRow} (h : u ++ e :: v = [x]) :
    u = [] ∧ e = x ∧ v = [] := by
  match u, h with
  | [], h => exact ⟨rfl, (List.cons.inj h).1, (List.cons.inj h).2⟩
  | z :: u, h => simp at h

/-- What an event that heads an entry says about the rest of it. -/
inductive Heads (s : DefinitionSnapshot) (e : EventRow) (v : List EventRow) : Prop where
  | fanOut {nodes : List String} {round : Int} : e.announces s = some (nodes, round) →
      (e.eventType = .forEachFannedOut → nodes ≠ []) →
      v.map (fun x => x.booking.map Prod.snd) = nodes.map (fun id => some (id, round)) → Heads s e v
  | idle {join : WorkflowNode} {arrived round : Int} : e.announces s = some ([], round) →
      e.str "join_node" = some join.id → findNode s.nodes join.id = some join → 0 ≤ arrived →
      (join.joinStrategy.getD .waitAll).isSatisfied arrived 0 = false → v = [] → Heads s e v
  | fired {y : EventRow} {join : String} {round : Int} : e.reachesJoin join round = true →
      (e.eventType = .forEachFannedOut → e.announces s = some ([], round)) →
      y.firesJoin join round = true → v = [y] → Heads s e v

/-- Where an event stands in its entry. -/
private theorem Entry.inv {s : DefinitionSnapshot} {u v : List EventRow} (h : Entry s (u ++ e :: v)) :
    e.eventType.isNote = true ∨ e.booking.isSome ∨ Heads s e v ∨
    (∃ x join round, u = [x] ∧ x.reachesJoin join round = true ∧ e.firesJoin join round = true) ∨
    (∃ b id, u = [b] ∧ b.booking.map Prod.fst = some id ∧ e.eventType = .returnedToRework ∧
      e.str "activity_id" = some id) := by
  have hmem : e ∈ u ++ e :: v := by simp
  generalize hb : u ++ e :: v = block at h hmem
  cases h with
  | note hnote => exact .inl (by rw [List.mem_singleton.1 hmem]; exact hnote)
  | scheduled hbooked => exact .inr (.inl (by rw [List.mem_singleton.1 hmem]; exact hbooked))
  | @fanOut m es nodes round hannounces hnonempty hplaces =>
    cases u with
    | nil =>
      obtain ⟨rfl, rfl⟩ := List.cons.inj hb
      exact .inr (.inr (.inl (.fanOut hannounces hnonempty hplaces)))
    | cons x u =>
      obtain ⟨-, hrest⟩ := List.cons.inj hb
      have hplace : e.booking.map Prod.snd ∈ es.map fun x => x.booking.map Prod.snd :=
        List.mem_map_of_mem (by rw [← hrest]; simp)
      rw [hplaces] at hplace
      obtain ⟨id, -, hid⟩ := List.mem_map.1 hplace
      exact .inr (.inl (by rw [← Option.isSome_map, ← hid]; rfl))
  | idle hannounces hjoin hfind harrived hwait =>
    obtain ⟨-, rfl, hv⟩ := one_of_append hb
    exact .inr (.inr (.inl (.idle hannounces hjoin hfind harrived hwait hv)))
  | fired hx hannounces hy =>
    rcases two_of_append hb with ⟨-, rfl, hv⟩ | ⟨rfl, rfl, -⟩
    · exact .inr (.inr (.inl (.fired hx hannounces hy hv)))
    · exact .inr (.inr (.inr (.inl ⟨_, _, _, rfl, hx, hy⟩)))
  | rework hbooked hrework hid =>
    rcases two_of_append hb with ⟨-, rfl, -⟩ | ⟨rfl, rfl, -⟩
    · exact .inr (.inl (by rw [← Option.isSome_map, hbooked]; rfl))
    · exact .inr (.inr (.inr (.inr ⟨_, _, rfl, hbooked, hrework, hid⟩)))

private theorem Heads.type {s : DefinitionSnapshot} {v : List EventRow} (h : Heads s e v) :
    e.eventType = .parallelSplitScheduled ∨ e.eventType = .forEachFannedOut ∨
      e.eventType = .branchReachedJoin := by
  cases h with
  | fanOut hannounces => exact (type_of_announces hannounces).imp_right .inl
  | idle hannounces => exact (type_of_announces hannounces).imp_right .inl
  | fired hx => exact .inr (type_of_reaches hx).symm

/-- A join fires right after it was looked at. -/
theorem reached_of_fires {s : DefinitionSnapshot} {join : String} {round : Int}
    (h : Blocks (Entry s) (pre ++ e :: post)) (he : e.firesJoin join round = true) :
    ∃ pre' x, pre = pre' ++ [x] ∧ x.reachesJoin join round = true := by
  obtain ⟨log, u, v, new, hentry, -, -, rfl, -⟩ := h.split
  obtain ⟨htype, hjoin, hround⟩ := type_of_fires he
  rcases hentry.inv with hnote | hbooked | hhead | ⟨x, j, n, rfl, hx, hs⟩ | ⟨_, _, -, -, ht, -⟩
  · simp [htype, EventType.isNote] at hnote
  · simp [EventRow.booking_of_ne, htype] at hbooked
  · simpa [htype] using hhead.type
  · obtain ⟨-, hjoin', hround'⟩ := type_of_fires hs
    obtain rfl : join = j := Option.some.inj (hjoin.symm.trans hjoin')
    obtain rfl : round = n := Option.some.inj (hround.symm.trans hround')
    exact ⟨log, x, rfl, hx⟩
  · simp [htype] at ht

/-- The rework of an activity is written right after the activity was scheduled. -/
theorem scheduled_of_rework {s : DefinitionSnapshot} (h : Blocks (Entry s) (pre ++ e :: post))
    (he : e.eventType = .returnedToRework) :
    ∃ pre' b id, pre = pre' ++ [b] ∧ b.booking.map Prod.fst = some id ∧ e.str "activity_id" = some id := by
  obtain ⟨log, u, v, new, hentry, -, -, rfl, -⟩ := h.split
  rcases hentry.inv with hnote | hbooked | hhead | ⟨_, _, _, -, -, hs⟩ | ⟨b, id, rfl, hbooked, -, hid⟩
  · simp [he, EventType.isNote] at hnote
  · simp [EventRow.booking_of_ne, he] at hbooked
  · simpa [he] using hhead.type
  · simp [he, EventRow.firesJoin] at hs
  · exact ⟨log, b, id, rfl, hbooked, hid⟩

/-- A fan-out heads its entry. -/
theorem heads_of_fanOut {s : DefinitionSnapshot} (h : Blocks (Entry s) (pre ++ e :: post))
    (he : e.eventType = .parallelSplitScheduled ∨ e.eventType = .forEachFannedOut) :
    ∃ v post', post = v ++ post' ∧ Heads s e v := by
  obtain ⟨log, u, v, new, hentry, -, -, -, rfl⟩ := h.split
  rcases hentry.inv with hnote | hbooked | hhead | ⟨_, _, _, -, -, hs⟩ | ⟨_, _, -, -, ht, -⟩
  · rcases he with ht | ht <;> simp [ht, EventType.isNote] at hnote
  · rcases he with ht | ht <;> simp [EventRow.booking_of_ne, ht] at hbooked
  · exact ⟨v, new, rfl, hhead⟩
  · rcases he with ht | ht <;> simp [ht, EventRow.firesJoin] at hs
  · rcases he with ht' | ht' <;> simp [ht'] at ht

end
end Fusions.Hetuflow
