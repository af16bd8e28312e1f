import Fusions.Hetuflow.Service.Firings
import Fusions.Hetuflow.Service.Script

/-! The rework rounds: which are in use, how many there may be, and which events account for them. -/
namespace Fusions.Hetuflow
open Fusions.Library

/-- Events that open a new round. -/
def EventType.opensRound (t : EventType) : Bool := t == .returnedToRework || t == .reactivated

namespace InstanceRows

/-- The rounds of the activities. -/
def rounds (r : InstanceRows) : List Int := r.activities.map ActivityRow.round

/-- How many events opened a new round. -/
def reopened (r : InstanceRows) : Nat := r.events.countP fun e => e.eventType.opensRound

/-- The rounds in use are the first one and one for each event that opened a round, within the limit. -/
structure Accounted (svc : WorkflowService) (r : InstanceRows) : Prop where
  used : ∀ n, n ∈ r.rounds ↔ 1 ≤ n ∧ n ≤ 1 + (r.reopened : Int)
  bounded : 1 + (r.reopened : Int) ≤ svc.effectiveLimit r.snapshot

private theorem le_foldl_max (l : List Int) (m : Int) : m ≤ l.foldl max m ∧ ∀ n ∈ l, n ≤ l.foldl max m := by
  induction l generalizing m with
  | nil => simp
  | cons x xs ih =>
    obtain ⟨hmax, hall⟩ := ih (max m x)
    refine ⟨Int.le_trans (Int.le_max_left ..) hmax, fun n hn => ?_⟩
    rcases List.mem_cons.1 hn with rfl | hn
    · exact Int.le_trans (Int.le_max_right ..) hmax
    · exact hall n hn

private theorem foldl_max_le {l : List Int} {m b : Int} (hm : m ≤ b) (hl : ∀ n ∈ l, n ≤ b) :
    l.foldl max m ≤ b := by
  induction l generalizing m with
  | nil => exact hm
  | cons x xs ih =>
    exact ih (Int.max_le.2 ⟨hm, hl x (List.mem_cons_self ..)⟩) fun n hn => hl n (List.mem_cons_of_mem _ hn)

variable {svc : WorkflowService} {r r' : InstanceRows}

theorem Accounted.maxRound (h : r.Accounted svc) : r.maxRound = 1 + (r.reopened : Int) := by
  have hmem : 1 + (r.reopened : Int) ∈ r.rounds := (h.used _).2 ⟨by omega, Int.le_refl _⟩
  refine Int.le_antisymm (foldl_max_le (by omega) fun n hn => ((h.used n).1 hn).2) ?_
  exact (le_foldl_max _ 0).2 _ hmem

/-- A step that opens no round, and schedules in the given one only. -/
structure Stays (round : Int) (r r' : InstanceRows) : Prop where
  snapshot : r'.snapshot = r.snapshot
  adds : Adds (fun t => !t.opensRound) r r'
  within : ∀ n, n ∈ r'.rounds → n ∈ r.rounds ∨ n = round
  kept : ∀ n ∈ r.rounds, n ∈ r'.rounds

/-- A step that opens the next round, which passed the check, and schedules in it. -/
structure Opens (svc : WorkflowService) (r r' : InstanceRows) : Prop where
  check : ∃ ctx, ctx.snapshot = r.snapshot ∧ svc.checkRound ctx (r.maxRound + 1) = .ok ()
  snapshot : r'.snapshot = r.snapshot
  opened : r'.reopened = r.reopened + 1
  rounds : r'.rounds = r.rounds ++ [r.maxRound + 1]

namespace Stays
variable {round : Int} {r₁ r₂ r₃ : InstanceRows}

theorem same (hsnapshot : r'.snapshot = r.snapshot) (hadds : Adds (fun t => !t.opensRound) r r')
    (hrounds : r'.rounds = r.rounds) : Stays round r r' :=
  ⟨hsnapshot, hadds, fun _ hn => .inl (hrounds ▸ hn), fun _ hn => hrounds ▸ hn⟩

theorem trans (h : Stays round r₁ r₂) (k : Stays round r₂ r₃) : Stays round r₁ r₃ :=
  ⟨k.snapshot.trans h.snapshot, h.adds.trans k.adds, fun n hn => (k.within n hn).elim (h.within n) .inr,
    fun n hn => k.kept n (h.kept n hn)⟩

theorem log (r : InstanceRows) (now : Time) {t : EventType} (p : Json) (k : Option String)
    (ht : t.opensRound = false) : Stays round r (r.log now t p k) :=
  same rfl (.log r now p k (by rw [ht]; rfl)) rfl

theorem passMerges (r : InstanceRows) (now : Time) (f : String) (n : Int) (ms : List String) :
    Stays round r (r.passMerges now f n ms) :=
  same (passMerges_snapshot ..) (.passMerges r now f n ms rfl) (by rw [InstanceRows.rounds, passMerges_activities]; rfl)

theorem pointTo (r : InstanceRows) (id : Uuid) : Stays round r (r.pointTo id) :=
  same (by unfold InstanceRows.pointTo; split <;> rfl) (.same (pointTo_events r id))
    (by rw [InstanceRows.rounds, pointTo_activities]; rfl)

theorem errorOut (r : InstanceRows) : Stays round r r.errorOut :=
  same (by unfold InstanceRows.errorOut; split <;> rfl) (.same (errorOut_events r))
    (by rw [InstanceRows.rounds, errorOut_activities]; rfl)

theorem enqueueOutbox (r : InstanceRows) (o : OutboxRow) : Stays round r (r.enqueueOutbox o) :=
  same (by unfold InstanceRows.enqueueOutbox; split <;> rfl) (.same (enqueueOutbox_events r o))
    (by rw [InstanceRows.rounds, enqueueOutbox_activities]; rfl)

theorem fire (r : InstanceRows) (now : Time) (join : WorkflowNode) (n arrived expected : Int)
    (exclude : Option Uuid) : Stays round r (r.fire now join n arrived expected exclude) := by
  refine same (fire_snapshot ..) (.fire r now join n arrived expected exclude rfl rfl) ?_
  rw [InstanceRows.rounds, fire_activities]
  split
  · apply map_updateWhere
    exact fun _ => rfl
  · rfl

theorem updateActivities (r : InstanceRows) (p : ActivityRow → Bool) (f : ActivityRow → ActivityRow)
    (hf : ∀ a, (f a).round = a.round) : Stays round r (r.updateActivities p f) :=
  same rfl (.same rfl) (map_updateWhere hf r.activities)

theorem completeActivity (r : InstanceRows) (now : Time) (id : Uuid) (result : Option String) (actor : Int)
    (notes : Option String) (payload : Json) :
    Stays round r (r.completeActivity now id result actor notes payload) :=
  (updateActivities r _ (ActivityRow.complete _ actor notes now) fun _ => rfl).trans (same rfl (.one rfl rfl) rfl)

theorem timeOutActivity (r : InstanceRows) (now : Time) (id : Uuid) :
    Stays round r (r.timeOutActivity now id) :=
  (updateActivities r _ ActivityRow.skip fun _ => rfl).trans (same rfl (.one rfl rfl) rfl)

theorem timerFired (r : InstanceRows) (now : Time) (t : TimerRow) (id : Uuid) (nodeId : String) :
    Stays round r (r.timerFired now t id nodeId) := same rfl (.one rfl rfl) rfl

theorem resume (r : InstanceRows) (now : Time) (a : ActivityInstance) : Stays round r (r.resume now a) := by
  refine same ?_ (.resume r now a rfl) (by rw [InstanceRows.rounds, resume_activities]; rfl)
  unfold InstanceRows.resume
  split <;> rfl

theorem resolve (r : InstanceRows) (now : Time) (cmd : SignalCommand) (a : ActivityInstance) :
    Stays round r (r.resolve now cmd a) :=
  ((log r now _ _ rfl).trans (completeActivity ..)).trans (resume ..)

end Stays

namespace Accounted

theorem stays {round : Int} (h : r.Accounted svc) (hstep : Stays round r r') (hround : round ∈ r.rounds) :
    r'.Accounted svc := by
  obtain ⟨new, hnew, hall⟩ := hstep.adds
  have hnone : new.countP (fun e => e.eventType.opensRound) = 0 :=
    List.countP_eq_zero.2 fun e he => by simpa using hall e he
  have hopened : r'.reopened = r.reopened := by
    rw [reopened, reopened, hnew, List.countP_append, hnone, Nat.add_zero]
  refine ⟨fun n => ?_, by rw [hopened, hstep.snapshot]; exact h.bounded⟩
  rw [hopened, ← h.used]
  refine ⟨fun hn => (hstep.within n hn).elim id ?_, hstep.kept n⟩
  rintro rfl
  exact hround

theorem opens (h : r.Accounted svc) (hstep : Opens svc r r') : r'.Accounted svc := by
  have hmax := h.maxRound
  obtain ⟨ctx, hctx, hcheck⟩ := hstep.check
  have hle : r.maxRound + 1 ≤ svc.effectiveLimit ctx.snapshot := by
    unfold WorkflowService.checkRound at hcheck
    dsimp only at hcheck
    split at hcheck
    · cases hcheck
    · omega
  refine ⟨fun n => ?_, by rw [hstep.opened, hstep.snapshot, ← hctx]; omega⟩
  rw [hstep.rounds, hstep.opened, List.mem_append, List.mem_singleton, h.used, hmax]
  omega

end Accounted

end InstanceRows

open InstanceRows

section
variable {svc : WorkflowService} {env : Env} {ctx : InstanceCtx} {source : ActivityInstance} {round : Int}

private theorem Scheduled.rounds {tenantId : Int} {node : WorkflowNode} {role : Option String} {n : Int}
    {fanout : Option FanoutMark} {row : ActivityRow} {r r' : InstanceRows}
    (h : Scheduled env tenantId node role n fanout r row r') : r'.rounds = r.rounds ++ [n] := by
  rw [InstanceRows.rounds, h.activities, List.map_append, h.row_eq]
  rfl

private theorem Scheduled.stays {tenantId : Int} {node : WorkflowNode} {role : Option String}
    {fanout : Option FanoutMark} {row : ActivityRow} {r r' : InstanceRows}
    (h : Scheduled env tenantId node role round fanout r row r') : Stays round r r' := by
  refine ⟨h.snapshot, h.adds rfl, fun n hn => ?_, fun n hn => ?_⟩
  · simpa [h.rounds] using hn
  · rw [h.rounds]
    exact List.mem_append_left _ hn

/-- A rework or a re-entry: the next round is opened by one event and one activity. -/
private theorem Scheduled.opens {tenantId : Int} {node : WorkflowNode} {role : Option String}
    {fanout : Option FanoutMark} {row : ActivityRow} {r₀ r r₁ r' : InstanceRows}
    (h : Scheduled env tenantId node role (r₀.maxRound + 1) fanout r row r₁) (hctx : ctx.snapshot = r₀.snapshot)
    (hcheck : svc.checkRound ctx (r₀.maxRound + 1) = .ok ()) (hactivities : r.activities = r₀.activities)
    (hsnapshot : r'.snapshot = r₀.snapshot) (hopened : r'.reopened = r₀.reopened + 1)
    (hrows : r'.activities = r₁.activities) : Opens svc r₀ r' := by
  refine ⟨⟨ctx, hctx, hcheck⟩, hsnapshot, hopened, ?_⟩
  rw [InstanceRows.rounds, hrows, ← InstanceRows.rounds, h.rounds, InstanceRows.rounds, hactivities]
  rfl

private theorem Branches.stays {via : String} {targets : List ParallelTarget} {rows : List ActivityRow}
    {r r' : InstanceRows} (h : Branches env ctx round via targets r rows r') : Stays round r r' := by
  induction h with
  | nil => exact .same rfl (.same rfl) rfl
  | cons _ hsched _ ih => exact hsched.stays.trans ih

private theorem fanOutRows_stays (trace : ResolveTrace) (targets : List ParallelTarget) (r : InstanceRows) :
    Stays round r (fanOutRows env source round trace targets r) := by
  refine (Stays.passMerges r env.now source.activityDefinitionId round trace.mergesPassed).trans ?_
  refine .same rfl (.one rfl ?_) rfl
  unfold fanOutMarker
  cases trace.forEachFanOut <;> rfl

private theorem Reaches.stays {outcome : AdvanceOutcome} {trace : ResolveTrace} {r r₁ : InstanceRows}
    {join : WorkflowNode} {exclude : Option Uuid}
    (h : Reaches env ctx source round outcome trace r join exclude r₁) : Stays round r r₁ := by
  cases h with
  | arrive => exact (Stays.passMerges ..).trans (.log _ _ _ none rfl)
  | emptyFanOut => exact fanOutRows_stays ..

private theorem reopened_passMerges (r : InstanceRows) (now : Time) (f : String) (n : Int) (ms : List String) :
    (r.passMerges now f n ms).reopened = r.reopened :=
  InstanceRows.passMerges_induction (P := fun r' => r'.reopened = r.reopened) ms rfl fun r' _ hr => by
    rw [← hr]
    simp [InstanceRows.reopened, InstanceRows.log, InstanceRows.appendEvent, EventType.opensRound]

/-- An applied outcome stays in its round, or opens the next one. -/
private theorem Applied.rounds {outcome : AdvanceOutcome} {trace : ResolveTrace} {r r' : InstanceRows}
    (h : Applied env ctx source round svc outcome trace r r') (hsnapshot : ctx.snapshot = r.snapshot) :
    Stays round r r' ∨ ∃ r₀, Stays round r r₀ ∧ Opens svc r₀ r' := by
  induction h with
  | schedule _ _ hsched => exact .inl (((Stays.passMerges ..).trans hsched.stays).trans (.pointTo ..))
  | fan _ hbranches => exact .inl ((fanOutRows_stays ..).trans hbranches.stays)
  | wait hreach _ _ => exact .inl (hreach.stays.trans (.same rfl (.same rfl) rfl))
  | @fire _ _ _ _ _ join exclude arrived expected hreach _ _ _ ih =>
    have hfire : Stays round _ _ := hreach.stays.trans (.fire _ env.now join round arrived expected exclude)
    rcases ih (hsnapshot.trans hfire.snapshot.symm) with hstay | ⟨r₀, hstay, hopen⟩
    · exact .inl (hfire.trans hstay)
    · exact .inr ⟨r₀, hfire.trans hstay, hopen⟩
  | complete _ hr₁ _ =>
    subst hr₁
    exact .inl ((Stays.passMerges ..).trans (.same rfl (.one rfl rfl) rfl))
  | @rework target role trace r r₁ node row hcheck _ _ hsched =>
    refine .inr ⟨r, .same rfl (.same rfl) rfl, hsched.opens hsnapshot hcheck (passMerges_activities ..) ?_ ?_ rfl⟩
    · exact hsched.snapshot.trans (passMerges_snapshot ..)
    · have hopened := reopened_passMerges r env.now source.activityDefinitionId round trace.mergesPassed
      simp [InstanceRows.reopened, InstanceRows.log, InstanceRows.appendEvent, InstanceRows.enterWaiting,
        InstanceRows.updateInstance, hsched.events, EventType.opensRound] at hopened ⊢
      exact hopened
  | error => exact .inl (((Stays.passMerges ..).trans (.errorOut _)).trans (.log _ _ _ none rfl))

/-- Every call keeps the account of the rounds. -/
theorem Effect.accounted {call : Call} {r r' : InstanceRows} (h : Effect svc env call r r')
    (hr : r.Accounted svc) : r'.Accounted svc := by
  have hfirst : (1 : Int) ∈ r.rounds := (hr.used 1).2 ⟨Int.le_refl 1, by omega⟩
  have happlied : ∀ {ctx : InstanceCtx} {source : ActivityInstance} {row : ActivityRow} {outcome : AdvanceOutcome}
      {trace : ResolveTrace} {r₀ : InstanceRows}, Applied env ctx source row.round svc outcome trace r₀ r' →
      row ∈ r.activities → ctx.snapshot = r₀.snapshot → Stays row.round r r₀ → r'.Accounted svc := by
    intro ctx source row outcome trace r₀ happly hrow hctx hbefore
    have hround : row.round ∈ r.rounds := List.mem_map_of_mem hrow
    rcases happly.rounds hctx with hstay | ⟨r₁, hstay, hopen⟩
    · exact hr.stays (hbefore.trans hstay) hround
    · exact (hr.stays (hbefore.trans hstay) hround).opens hopen
  cases h with
  | nothing => exact hr
  | @assignee cmd r row =>
    exact hr.stays ((Stays.updateActivities r _ (fun a => { a with assigneeId := cmd.assigneeId }) fun _ => rfl).trans
      (.log (t := .signalReceived) _ env.now _ _ rfl)) hfirst
  | @advance cmd _ r₁ _ row node ctx _ _ _ hrow _ _ _ hctx happly =>
    have hwritten : Stays row.round r r₁ := by
      cases hctx with
      | none => exact .same rfl (.same rfl) rfl
      | merged => exact .same rfl (.one rfl rfl) rfl
    have hbefore := hwritten.trans (.resolve r₁ env.now cmd (row.intoModel r.inst.id))
    exact happlied happly hrow (hctx.snapshot.trans hbefore.snapshot.symm) hbefore
  | @reenter _ key _ r₁ _ _ _ row _ _ _ hcheck _ _ hsched =>
    have hsnapshot : r.ctx.snapshot = r.snapshot := rfl
    refine hr.opens (hsched.opens hsnapshot hcheck rfl ?_ ?_ (pointTo_activities ..))
    · exact (Stays.pointTo r₁ row.id : Stays row.round r₁ _).snapshot.trans hsched.snapshot
    · rw [InstanceRows.reopened, pointTo_events, hsched.events]
      simp [InstanceRows.reopened, InstanceRows.reactivate, InstanceRows.log, InstanceRows.appendEvent,
        InstanceRows.updateInstance, EventType.opensRound]
  | timerGone => exact hr.stays (.same rfl (.same rfl) rfl) hfirst
  | reminder => exact hr.stays ((Stays.timerFired ..).trans (.enqueueOutbox ..)) hfirst
  | escalationGone => exact hr.stays (.timerFired ..) hfirst
  | @escalated t r row node toRole payload =>
    refine hr.stays (((Stays.timerFired r env.now t row.id node.id).trans ?_).trans (.enqueueOutbox ..)) hfirst
    exact (Stays.updateActivities _ _ (fun a => { a with assigneeRole := some toRole }) fun _ => rfl).trans
      (.log (t := .approvalEscalated) _ env.now _ none rfl)
  | timedOut _ _ _ hrow _ _ _ happly =>
    exact happlied happly hrow rfl ((Stays.timerFired ..).trans (.timeOutActivity ..))
  | delivered hrow _ _ _ happly => exact happlied happly hrow rfl (.completeActivity ..)
  | callback => exact hr.stays (.same rfl (.same rfl) rfl) hfirst
  | deadLetter => exact hr.stays (.log _ _ _ none rfl) hfirst

private theorem Started.accounted {supply : Supply} {cmd : StartCommand} {r : InstanceRows}
    (h : Started svc env supply cmd r) : r.Accounted svc := by
  obtain ⟨entryId, entryRole, node, row, r₁, -, -, hsched, rfl⟩ := h.rows
  have hopened : (r₁.pointTo row.id).reopened = 0 := by
    rw [InstanceRows.reopened, pointTo_events, hsched.events]
    simp [InstanceRows.log, InstanceRows.appendEvent, insertedRows, EventType.opensRound]
  have hrounds : (r₁.pointTo row.id).rounds = [1] := by
    rw [InstanceRows.rounds, pointTo_activities, ← InstanceRows.rounds, hsched.rounds]
    rfl
  refine ⟨fun n => ?_, ?_⟩
  · rw [hrounds, hopened, List.mem_singleton]
    omega
  · have hlimit := svc.one_le_limit
    rw [hopened]
    unfold WorkflowService.effectiveLimit
    split <;> omega

theorem accounted_of_reachable {store : Store} (h : (engine svc).Reachable store) :
    ∀ r ∈ store, r.Accounted svc :=
  rows_invariant (fun _ _ _ _ hstarted => hstarted.accounted) (fun _ _ _ _ _ hr heffect => heffect.accounted hr) h

/-- The rounds of an instance are bounded by the limit in force, contiguous from 1, and accounted for by
the events that returned it to rework or reactivated it. -/
theorem rounds_accounted {config : WorkflowConfig} {registry : CallbackRegistry} {cel : Cel}
    {definitionHash : DefinitionSnapshot → String} {store : Store} {r : InstanceRows}
    (h : (engine (.new config registry cel definitionHash)).Reachable store) (hr : r ∈ store) :
    let hard := max 1 (min config.maxRoundHardLimit 20)
    let limit := min (if r.snapshot.maxRound > 0 then r.snapshot.maxRound else hard) hard
    (∀ a ∈ r.activities, 1 ≤ a.round ∧ a.round ≤ limit) ∧
      ∃ m : Int, (∀ n, (∃ a ∈ r.activities, a.round = n) ↔ 1 ≤ n ∧ n ≤ m) ∧
        m - 1 = r.events.countP fun e => e.eventType == .returnedToRework || e.eventType == .reactivated := by
  intro hard limit
  have haccount := accounted_of_reachable h r hr
  have hlimit : (WorkflowService.new config registry cel definitionHash).effectiveLimit r.snapshot = limit := rfl
  have hused : ∀ n, (∃ a ∈ r.activities, a.round = n) ↔ 1 ≤ n ∧ n ≤ 1 + (r.reopened : Int) := by
    intro n
    rw [← haccount.used, InstanceRows.rounds, List.mem_map]
  refine ⟨fun a ha => ?_, 1 + (r.reopened : Int), hused, ?_⟩
  · obtain ⟨hfirst, hlast⟩ := (hused a.round).1 ⟨a, ha, rfl⟩
    have hbound := haccount.bounded
    rw [hlimit] at hbound
    exact ⟨hfirst, Int.le_trans hlast hbound⟩
  · rw [Int.add_comm, Int.add_sub_cancel]
    rfl

end

/-- Two approvals, the second of which has handed back to the first. -/
theorem rounds_accounted_returned :
    let store := played (Sample.service "7a6d27b815241864571160d73edf780b97bb8792a8a90ff64f336e175813388e") 9
      [Sample.start (Sample.definition [Sample.approval "a", Sample.approval "b"]
        [Sample.approved "a" "b", Sample.approved "b" "end", ⟨"b", "a", .returned⟩]) none,
       Sample.approve (Sample.uuid 0 1), Sample.signal .returned none (Sample.uuid 1 0)]
    store.length = 1 ∧ ∀ r ∈ store, ∃ m : Int, (∀ n, (∃ a ∈ r.activities, a.round = n) ↔ 1 ≤ n ∧ n ≤ m) ∧
      m - 1 = r.events.countP fun e => e.eventType == .returnedToRework || e.eventType == .reactivated := by
  intro store
  exact ⟨by decide +kernel, fun r hr => (rounds_accounted (reachable_played ..) hr).2⟩

end Fusions.Hetuflow
