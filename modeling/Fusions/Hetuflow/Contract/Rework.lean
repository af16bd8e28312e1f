import Fusions.Hetuflow.Contract.Joins
import Fusions.Hetuflow.Service.Resolution

/-! An instance that waits for the rework of one of its activities: which calls may move it. -/
namespace Fusions.Hetuflow
open Fusions.Library

namespace InstanceRows
variable (r r' : InstanceRows)

/-- The activity that the last rework has handed the instance back to. -/
def reworkTarget : Option Uuid :=
  (r.events.reverse.find? fun e => e.eventType == .returnedToRework).bind (·.str "activity_id")

/-- The last event is that a branch, or an empty collection, has reached a join. -/
def RestsAtJoin : Prop :=
  ∃ e, r.events.getLast? = some e ∧ (e.eventType = .branchReachedJoin ∨ e.eventType = .forEachFannedOut)

/-- The status is the same, nothing is scheduled, and neither an end nor an error is on record. -/
def StaysPut : Prop :=
  r'.inst.status = r.inst.status ∧ r'.activities.length = r.activities.length ∧
    Adds (fun t => t != .completed && t != .errored) r r'

/-- The update that goes with the last event has hit the instance row. -/
def Landed : Prop :=
  ∀ e, r.events.getLast? = some e →
    (e.eventType = .completed → r.inst.status = .completed) ∧ (e.eventType = .errored → r.inst.status = .errored) ∧
    (e.eventType = .returnedToRework → r.inst.status = .returnedWaiting) ∧
    (e.eventType = .activityScheduled → e.str "via" = none → r.inst.currentActivityId = e.str "activity_id")

/-- The instance is brought back to active before an outcome is applied, and the outcome's updates hit. -/
def ResumesFirst (svc : WorkflowService) : Prop :=
  ∃ env ctx source round outcome trace, ∃ r₀ : InstanceRows, r₀.inst.status = .active ∧
    (∃ new e, r₀.events = r.events ++ new ++ [e] ∧ e.eventType = .reworkResumed) ∧
    Applied env ctx source round svc outcome trace r₀ r' ∧ r'.Landed

end InstanceRows

/-- A call on an instance that waits for the rework of `t`: one that does not resolve `t` moves nothing, and
one that resolves it brings the instance back first. -/
structure Disciplined (svc : WorkflowService) (t : Uuid) (r r' : InstanceRows) : Prop where
  others : r.resolved r' ≠ some t → r.StaysPut r'
  target : r.resolved r' = some t → r.ResumesFirst r' svc

/-- The call resolves nothing, or it is a signal to `t`, or else the branch of another activity comes to rest
at a join. -/
def Call.Respects (t : Uuid) (r r' : InstanceRows) (call : Call) : Prop :=
  ∀ id, r.resolved r' = some id → (call.isSignal = true ∧ id = t) ∨
    (call.isSignal = false ∧ id ≠ t ∧ r'.RestsAtJoin)

section
variable {svc : WorkflowService} {env : Env} {ctx : InstanceCtx} {source : ActivityInstance} {round : Int}
  {r r₁ r' : InstanceRows} {outcome : AdvanceOutcome} {trace : ResolveTrace}

/-- The last branch of a fan-out is the last on record, and marked as one. -/
private theorem Branches.last {via : String} {targets : List ParallelTarget} {rows : List ActivityRow}
    (h : Branches env ctx round via targets r rows r') :
    targets = [] ∧ r' = r ∨ ∃ e, r'.events.getLast? = some e ∧ e.eventType = .activityScheduled ∧
      e.str "via" = some via := by
  induction h with
  | nil => exact .inl ⟨rfl, rfl⟩
  | @cons t ts node row rows r r₁ r₂ _ hsched _ ih =>
    right
    rcases ih with ⟨-, rfl⟩ | hlast
    · refine ⟨_, by rw [hsched.events]; exact List.getLast?_concat, rfl, ?_⟩
      simp [EventRow.str, WorkflowService.scheduledPayload, pstr, Json.get, List.lookup_cons, Json.asStr]
    · exact hlast

private theorem landed_of_last {old : List EventRow} {e : EventRow} (hlast : r.events = old ++ [e])
    (hcompleted : e.eventType = .completed → r.inst.status = .completed)
    (herrored : e.eventType = .errored → r.inst.status = .errored)
    (hrework : e.eventType = .returnedToRework → r.inst.status = .returnedWaiting)
    (hscheduled : e.eventType = .activityScheduled → e.str "via" = none →
      r.inst.currentActivityId = e.str "activity_id") : r.Landed := by
  intro e' he'
  rw [hlast, List.getLast?_concat] at he'
  obtain rfl : e = e' := Option.some.inj he'
  exact ⟨hcompleted, herrored, hrework, hscheduled⟩

private theorem Reaches.last {join : WorkflowNode} {exclude : Option Uuid}
    (h : Reaches env ctx source round outcome trace r join exclude r₁) : r₁.RestsAtJoin := by
  cases h with
  | arrive => exact ⟨_, List.getLast?_concat, .inl rfl⟩
  | emptyFanOut htrace _ =>
    refine ⟨_, List.getLast?_concat, .inr ?_⟩
    simp [fanOutMarker, htrace]

/-- Applied to an active instance, the updates of an outcome hit. -/
theorem Applied.landed (h : Applied env ctx source round svc outcome trace r r') (hactive : r.inst.status = .active) :
    r'.Landed := by
  induction h with
  | @schedule _ _ trace r r₁ node row _ _ hsched =>
    have hs : r₁.inst.status = .active := by
      rw [hsched.inst, passMerges_inst]
      exact hactive
    refine landed_of_last ((pointTo_events ..).trans hsched.events) ?_ ?_ ?_ fun _ _ => ?_
    · intro h; cases h
    · intro h; cases h
    · intro h; cases h
    · rw [InstanceRows.pointTo, if_pos hs]
      rfl
  | @fan targets trace r r₁ _ _ hbranches =>
    rcases hbranches.last with ⟨-, rfl⟩ | ⟨e, hlast, ht, hvia⟩
    · refine landed_of_last rfl ?_ ?_ ?_ ?_ <;> cases htrace : trace.forEachFanOut <;> simp [fanOutMarker, htrace]
    · obtain ⟨old, hlast⟩ := List.getLast?_eq_some_iff.1 hlast
      refine landed_of_last hlast ?_ ?_ ?_ fun _ hnone => ?_
      · rw [ht]; intro h; cases h
      · rw [ht]; intro h; cases h
      · rw [ht]; intro h; cases h
      · rw [hvia] at hnone
        cases hnone
  | wait hreach _ _ =>
    obtain ⟨e, hlast, ht⟩ := hreach.last
    obtain ⟨old, hlast⟩ := List.getLast?_eq_some_iff.1 hlast
    refine landed_of_last (r := InstanceRows.clearCurrent _) hlast ?_ ?_ ?_ ?_ <;> intro h <;> rw [h] at ht <;>
      rcases ht with ht | ht <;> cases ht
  | fire hreach _ _ _ ih =>
    apply ih
    rw [fire_inst, hreach.rows.2.2.1]
    exact hactive
  | complete _ hr₁ _ =>
    subst hr₁
    refine landed_of_last rfl (fun _ => rfl) ?_ ?_ ?_ <;> intro h <;> cases h
  | rework => refine landed_of_last rfl ?_ ?_ (fun _ => rfl) ?_ <;> intro h <;> cases h
  | @error trace r reason =>
    refine landed_of_last rfl ?_ (fun _ => ?_) ?_ ?_
    · intro h; cases h
    · rw [InstanceRows.errorOut, if_pos (by rw [passMerges_inst]; exact hactive)]
      rfl
    · intro h; cases h
    · intro h; cases h

/-- An outcome leaves the instance waiting for a rework only if it was, or by scheduling the rework's activity. -/
theorem Applied.waiting (h : Applied env ctx source round svc outcome trace r r')
    (hwaiting : r'.inst.status = .returnedWaiting) :
    r.inst.status = .returnedWaiting ∨
      r.activities.length < r'.activities.length ∧ ∃ e ∈ r'.events, e.eventType = .returnedToRework := by
  induction h with
  | schedule _ _ hsched =>
    rw [pointTo_status, hsched.inst, passMerges_inst] at hwaiting
    exact .inl hwaiting
  | fan _ hbranches =>
    rw [hbranches.inst] at hwaiting
    simp only [fanOutRows, InstanceRows.log, InstanceRows.appendEvent, InstanceRows.clearCurrent,
      InstanceRows.updateInstance, passMerges_inst] at hwaiting
    exact .inl hwaiting
  | wait hreach _ _ => exact .inl (hreach.rows.2.2.1.symm.trans hwaiting)
  | @fire _ _ r r₁ _ join exclude arrived expected hreach _ _ _ ih =>
    rcases ih hwaiting with hs | ⟨hlength, hevent⟩
    · rw [fire_inst, hreach.rows.2.2.1] at hs
      exact .inl hs
    · rw [fire_length, hreach.rows.1] at hlength
      exact .inr ⟨hlength, hevent⟩
  | complete _ hr₁ _ =>
    subst hr₁
    cases hwaiting
  | @rework target role trace r r₁ node row _ _ _ hsched =>
    right
    constructor
    · show r.activities.length < r₁.activities.length
      rw [hsched.length, passMerges_activities]
      omega
    · exact ⟨_, List.mem_append_right _ (List.mem_singleton.2 rfl), rfl⟩
  | @error trace r reason =>
    left
    by_cases hactive : r.inst.status = .active
    · rw [InstanceRows.errorOut, if_pos (by rw [passMerges_inst]; exact hactive)] at hwaiting
      cases hwaiting
    · rw [InstanceRows.errorOut, if_neg (by rw [passMerges_inst]; exact hactive)] at hwaiting
      rwa [← passMerges_inst r]

/-- Staying put, step by step. -/
private theorem staysPut_iff (hstatus : r₁.inst.status = r.inst.status)
    (hlength : r₁.activities.length = r.activities.length)
    (hadds : Adds (fun t => t != .completed && t != .errored) r r₁) (hgrows : ∃ new, r'.events = r₁.events ++ new) :
    r.StaysPut r' ↔ r₁.StaysPut r' := by
  constructor
  · rintro ⟨hs, hl, all, hall, hnone⟩
    obtain ⟨before, hbefore, -⟩ := hadds
    obtain ⟨new, hnew⟩ := hgrows
    refine ⟨hs.trans hstatus.symm, hl.trans hlength.symm, new, hnew, fun e he => hnone e ?_⟩
    rw [hnew, hbefore, List.append_assoc] at hall
    rw [← List.append_cancel_left hall]
    exact List.mem_append_right _ he
  · rintro ⟨hs, hl, hlater⟩
    exact ⟨hs.trans hstatus, hl.trans hlength, hadds.trans hlater⟩

/-- What a call that schedules something leaves does not stay put, and does not rest at a join. -/
private theorem not_rests_of_last {e : EventRow} (hlast : r.events.getLast? = some e)
    (hreached : e.eventType ≠ .branchReachedJoin) (hfanned : e.eventType ≠ .forEachFannedOut) : ¬ r.RestsAtJoin := by
  rintro ⟨e', he', ht⟩
  obtain rfl : e = e' := Option.some.inj (hlast.symm.trans he')
  exact ht.elim hreached hfanned

private theorem not_staysPut {n : Nat} (h : r'.activities.length = r.activities.length + (n + 1)) : ¬ r.StaysPut r' :=
  fun hstays => by
    have hlength := hstays.2.1
    omega

private theorem splitTargets_length {nodes : List WorkflowNode} {ids : List String} {targets : List ParallelTarget}
    (h : splitTargets nodes ids = some targets) : targets.length = ids.length := by
  induction ids generalizing targets with
  | nil =>
    cases h
    rfl
  | cons id ids ih =>
    simp only [splitTargets, Option.bind_eq_bind, Option.bind_eq_some_iff] at h
    obtain ⟨node, -, activityType, -, rest, hrest, h⟩ := h
    cases h
    rw [List.length_cons, List.length_cons, ih hrest]

/-- A fan-out of a valid definition schedules a branch. -/
private theorem targets_ne_nil {cel : Cel} {s : DefinitionSnapshot} {context : Option Json}
    {targets : List ParallelTarget} (hvalid : validateDefinition cel s.nodes s.transitions = .ok ())
    (hdecided : Decided cel s.nodes context (.advanceMulti targets) trace)
    (hforEach : trace.forEachFanOut.isSome → targets ≠ []) : targets ≠ [] := by
  rcases hdecided with hresolved | ⟨_, _, h⟩
  · cases hresolved with
    | split hnode hsplit htargets _ =>
      have hlength := (converges_of_valid hvalid hnode hsplit).1
      rw [← splitTargets_length htargets] at hlength
      rintro rfl
      cases hlength
    | forEach _ _ _ htrace => exact hforEach (by rw [htrace]; rfl)
  · cases h

/-- Applied to an instance that waits, an outcome leaves it in place exactly if its branch comes to rest. -/
theorem Applied.staysPut_iff (h : Applied env ctx source round svc outcome trace r r')
    (hvalid : validateDefinition svc.cel ctx.snapshot.nodes ctx.snapshot.transitions = .ok ())
    (hdecided : Decided svc.cel ctx.snapshot.nodes ctx.context outcome trace)
    (hwaiting : r.inst.status = .returnedWaiting) : r.StaysPut r' ↔ r'.RestsAtJoin := by
  induction h with
  | @schedule _ _ trace r r₁ node row _ _ hsched =>
    apply iff_of_false
    · refine not_staysPut (n := 0) ?_
      rw [InstanceRows.pointTo_activities, hsched.length, passMerges_activities]
    · rw [InstanceRows.RestsAtJoin, pointTo_events, hsched.events, List.getLast?_concat]
      rintro ⟨e, he, ht⟩
      cases he
      rcases ht with ht | ht <;> cases ht
  | @fan targets trace r r₁ rows hforEach hbranches =>
    obtain ⟨t, ts, rfl⟩ := List.exists_cons_of_ne_nil (targets_ne_nil hvalid hdecided hforEach)
    rcases hbranches.last with ⟨h, -⟩ | ⟨e, hlast, ht, -⟩
    · cases h
    apply iff_of_false
    · obtain ⟨-, hrows, hplaces, -⟩ := hbranches.booking
      have hsize : rows.length = ts.length + 1 := by simpa using congrArg List.length hplaces
      refine not_staysPut (n := ts.length) ?_
      rw [hrows, List.length_append, hsize]
      simp [fanOutRows, InstanceRows.log, InstanceRows.appendEvent, InstanceRows.clearCurrent,
        InstanceRows.updateInstance]
    · refine not_rests_of_last hlast ?_ ?_ <;> rw [ht] <;> intro h <;> cases h
  | wait hreach _ _ =>
    refine iff_of_true ⟨hreach.rows.2.2.1, congrArg List.length hreach.rows.1, ?_⟩ hreach.last
    exact (hreach.adds rfl rfl rfl).trans (.same rfl)
  | fire hreach _ _ happly ih =>
    have hs := hreach.rows.2.2.1
    refine (Hetuflow.staysPut_iff ?_ ?_ ?_ happly.adds.grows).trans (ih (decideAdvance_decided ..) ?_)
    · rw [fire_inst, hs]
    · rw [fire_length, hreach.rows.1]
    · exact (hreach.adds rfl rfl rfl).trans (.fire _ _ _ _ _ _ _ rfl rfl)
    · rw [fire_inst, hs]
      exact hwaiting
  | complete hactive =>
    rw [hwaiting] at hactive
    cases hactive
  | rework _ hactive =>
    rw [hwaiting] at hactive
    cases hactive
  | @error trace r reason =>
    apply iff_of_false
    · intro hstays
      have hmiss : (r.passMerges env.now source.activityDefinitionId round trace.mergesPassed).errorOut =
          r.passMerges env.now source.activityDefinitionId round trace.mergesPassed := by
        rw [InstanceRows.errorOut, if_neg (by rw [passMerges_inst, hwaiting]; intro h; cases h)]
      rw [hmiss] at hstays
      have hlast := (Hetuflow.staysPut_iff (by rw [passMerges_inst]) (by rw [passMerges_activities])
        (.passMerges _ _ _ _ _ rfl) ⟨[_], rfl⟩).1 hstays
      obtain ⟨new, hnew, hnone⟩ := hlast.2.2
      obtain rfl : [_] = new := List.append_cancel_left hnew
      cases hnone _ (List.mem_singleton.2 rfl)
    · refine not_rests_of_last List.getLast?_concat ?_ ?_ <;> intro h <;> cases h

private theorem Quiet.staysPut (h : Quiet r r') : r.StaysPut r' := by
  refine ⟨h.status, by simpa using congrArg List.length h.activities, h.adds.mono fun t ht => ?_⟩
  cases t <;> first | rfl | cases ht

/-- The call resolves `row`, and so does its log. -/
private theorem Resolves.resolved_later {call : Call} {row : ActivityRow} {r₀ : InstanceRows}
    (h : Resolves svc env call r row r₀ r') : r.resolved r' = some row.id := by
  obtain ⟨ctx, outcome, trace, -, -, happly⟩ := h.applied
  exact resolved_append h.resolved h.keeps.evolves.events happly.adds.grows

/-- A signal to an instance that waits for a rework is in order exactly if it is one to the rework's activity. -/
private theorem disciplined_of_resumed {call : Call} {row : ActivityRow} {r₀ : InstanceRows} (t : Uuid)
    (h : Resolves svc env call r row r₀ r') (hwaiting : r.inst.status = .returnedWaiting)
    (hsignal : call.isSignal = true) (hactive : r₀.inst.status = .active)
    (hlast : ∃ e, r₀.events.getLast? = some e ∧ e.eventType = .reworkResumed) :
    Disciplined svc t r r' ↔ call.Respects t r r' := by
  have hresolved := h.resolved_later
  obtain ⟨ctx, outcome, trace, -, -, happly⟩ := h.applied
  constructor
  · intro hd id hid
    obtain rfl : row.id = id := Option.some.inj (hresolved.symm.trans hid)
    refine .inl ⟨hsignal, Classical.byContradiction fun hne => ?_⟩
    obtain ⟨hs, hlength, -⟩ := hd.others (by rw [hresolved]; simpa using hne)
    rcases happly.waiting (hs.trans hwaiting) with hstill | ⟨hgrows, -⟩
    · rw [hactive] at hstill
      cases hstill
    · rw [h.length, hlength] at hgrows
      exact Nat.lt_irrefl _ hgrows
  · intro hrespects
    rcases hrespects row.id hresolved with ⟨-, rfl⟩ | ⟨hno, -⟩
    · refine ⟨fun hne => absurd hresolved hne, fun _ => ?_⟩
      refine ⟨env, ctx, _, _, outcome, trace, r₀, hactive, ?_, happly, happly.landed hactive⟩
      obtain ⟨new, hnew⟩ := h.keeps.evolves.events
      obtain ⟨e, he, ht⟩ := hlast
      rcases List.eq_nil_or_concat new with rfl | ⟨init, last, rfl⟩
      · have hnone := h.resolved
        rw [resolved_of_events hnew] at hnone
        cases hnone
      · rw [hnew, List.concat_eq_append, ← List.append_assoc, List.getLast?_concat] at he
        obtain rfl : last = e := Option.some.inj he
        exact ⟨init, last, by rw [hnew, List.concat_eq_append, List.append_assoc], ht⟩
    · rw [hsignal] at hno
      cases hno

/-- A timeout or a delivery on such an instance is in order exactly if it is one of another activity, whose
branch comes to rest. -/
private theorem disciplined_of_same {call : Call} {row : ActivityRow} {r₀ : InstanceRows} (t : Uuid)
    (w : WellFormed svc r) (h : Resolves svc env call r row r₀ r') (hwaiting : r.inst.status = .returnedWaiting)
    (hsignal : call.isSignal = false) (hs : r₀.inst.status = r.inst.status) (hadds : Adds (· != .reworkResumed) r r₀) :
    Disciplined svc t r r' ↔ call.Respects t r r' := by
  have hresolved := h.resolved_later
  obtain ⟨ctx, outcome, trace, hctx, hdecided, happly⟩ := h.applied
  have hstays : r.StaysPut r' ↔ r'.RestsAtJoin := by
    refine (staysPut_iff hs h.length (h.adds.mono fun t ht => ?_) happly.adds.grows).trans
      (happly.staysPut_iff ?_ hdecided (hs.trans hwaiting))
    · cases t <;> first | rfl | cases ht
    · rw [hctx]
      exact (h.keeps.wellFormed w).valid
  constructor
  · intro hd id hid
    obtain rfl : row.id = id := Option.some.inj (hresolved.symm.trans hid)
    refine .inr ⟨hsignal, ?_⟩
    by_cases hid : row.id = t
    · -- nothing on the way has brought the instance back
      obtain ⟨env', ctx', source', round', outcome', trace', r₁, -, ⟨new, e, hevents, ht⟩, happly', -⟩ :=
        hd.target (hid ▸ hresolved)
      obtain ⟨all, hall, hnone⟩ := hadds.trans (happly.adds.mono fun t ht => by cases t <;> first | rfl | cases ht)
      obtain ⟨later, hlater⟩ := happly'.adds.grows
      rw [hlater, hevents, List.append_assoc, List.append_assoc] at hall
      have hmem : e ∈ all := by
        rw [← List.append_cancel_left hall]
        simp
      have hne := hnone e hmem
      rw [ht] at hne
      cases hne
    · exact ⟨hid, hstays.1 (hd.others (by rw [hresolved]; simpa using hid))⟩
  · intro hrespects
    rcases hrespects row.id hresolved with ⟨hyes, -⟩ | ⟨-, hne, hrests⟩
    · rw [hsignal] at hyes
      cases hyes
    · exact ⟨fun _ => hstays.2 hrests, fun heq => absurd (Option.some.inj (hresolved.symm.trans heq)) hne⟩

private theorem disciplined_iff {call : Call} (t : Uuid) (w : WellFormed svc r) (heffect : Effect svc env call r r')
    (hwaiting : r.inst.status = .returnedWaiting) : Disciplined svc t r r' ↔ call.Respects t r r' := by
  rcases heffect.resolves with hquiet | hreentered | ⟨row, r₀, hresolves⟩
  · have hnone := hquiet.resolved
    apply iff_of_true
    · exact ⟨fun _ => hquiet.staysPut, fun h => by rw [hnone] at h; cases h⟩
    · intro id hid
      rw [hnone] at hid
      cases hid
  · rw [hreentered.before] at hwaiting
    cases hwaiting
  · cases hresolves.resumes with
    | resumed hsignal _ hactive hlast => exact disciplined_of_resumed t hresolves hwaiting hsignal hactive hlast
    | same hno hs hadds => exact disciplined_of_same t w hresolves hwaiting (hno.resolve_right (· hwaiting)) hs hadds

variable {store : Store}

/-- An instance that waits for a rework has one on record. -/
theorem reworkTarget_of_waiting (h : (engine svc).Reachable store) (hr : r ∈ store)
    (hwaiting : r.inst.status = .returnedWaiting) : ∃ t, r.reworkTarget = some t := by
  have hrecord : r.inst.status = .returnedWaiting → ∃ e ∈ r.events, e.eventType = .returnedToRework := by
    refine rows_invariant (P := fun r => r.inst.status = .returnedWaiting → ∃ e ∈ r.events,
      e.eventType = .returnedToRework) (fun env supply cmd r hstarted hs => ?_)
      (fun env call r r' w hP heffect hs => ?_) h r hr
    · rw [hstarted.status] at hs
      cases hs
    have hold : r.inst.status = .returnedWaiting → ∃ e ∈ r'.events, e.eventType = .returnedToRework := by
      intro hs
      obtain ⟨e, he, ht⟩ := hP hs
      exact ⟨e, (heffect.keeps w).evolves.event he, ht⟩
    rcases heffect.resolves with hquiet | hreentered | ⟨row, r₀, hresolves⟩
    · exact hold (hquiet.status ▸ hs)
    · rw [hreentered.after] at hs
      cases hs
    · obtain ⟨ctx, outcome, trace, -, -, happly⟩ := hresolves.applied
      rcases happly.waiting hs with hstill | ⟨-, hevent⟩
      · cases hresolves.resumes with
        | resumed _ hwas => exact hold hwas
        | same _ hsame => exact hold (hsame.symm.trans hstill)
      · exact hevent
  obtain ⟨e, he, ht⟩ := hrecord hwaiting
  unfold InstanceRows.reworkTarget
  cases hfind : r.events.reverse.find? fun e => e.eventType == .returnedToRework with
  | none => exact absurd ht (by simpa using List.find?_eq_none.1 hfind e (List.mem_reverse.2 he))
  | some e =>
    obtain ⟨pre, post, hevents⟩ := List.append_of_mem (List.mem_reverse.1 (List.mem_of_find?_eq_some hfind))
    have htype : e.eventType = .returnedToRework := by simpa using List.find?_some hfind
    obtain ⟨-, -, id, -, -, hid⟩ := scheduled_of_rework (hevents ▸ (logged_of_reachable h r hr).entries) htype
    exact ⟨id, hid⟩

/-- In every run, an instance that waits has a rework target, and the next call on it keeps the discipline of
the rework exactly if it resolves nothing, is a signal to the target, or lets the branch of another activity come
to rest at a join. -/
theorem rework_disciplined_iff {others : Store} {call : Call} {store' : Store} (h : (engine svc).Reachable store)
    (hstep : Commits svc store (.call others r call r') store') (hwaiting : r.inst.status = .returnedWaiting) :
    ∃ t, r.reworkTarget = some t ∧ (Disciplined svc t r r' ↔ call.Respects t r r') := by
  have w := wellFormed_of_reachable h
  rcases hstep.cases w with ⟨cmd, hop, -⟩ | ⟨cmd, supply, x, hop, -⟩ |
    ⟨pre, x, call, x', post, supply, hop, rfl, -, heffect⟩
  · cases hop
  · cases hop
  · cases hop
    obtain ⟨t, ht⟩ := reworkTarget_of_waiting h (List.mem_append_right pre (List.mem_cons_self ..)) hwaiting
    exact ⟨t, ht, disciplined_iff t (w.rows r (by simp)) heffect hwaiting⟩

end

/-- A split into two approvals, the first of which has handed back to the approval before the split. -/
def handedBack : Store :=
  played (Sample.service "14c8fa4f763de28e75132a73bcb198d39bd9b72a7d08c2ac1aa56577605b44fd") 9
    [Sample.start (Sample.definition [Sample.approval "a", Sample.node "s" (.parallelSplit ["x", "y"]),
      Sample.approval "x", Sample.approval "y", Sample.node "j" (.parallelJoin .waitAll)]
      [Sample.approved "a" "s", Sample.approved "x" "j", Sample.approved "y" "j", Sample.approved "j" "end",
        ⟨"x", "a", .returned⟩]) none,
    Sample.approve (Sample.uuid 0 1), Sample.signal .returned none (Sample.uuid 1 0)]

/-- The approval of the other branch brings the instance back, though it is not the rework's activity. -/
theorem sibling_resumes :
    let svc := Sample.service "14c8fa4f763de28e75132a73bcb198d39bd9b72a7d08c2ac1aa56577605b44fd"
    (engine svc).Reachable handedBack ∧ ∃ others r call r' store', Commits svc handedBack (.call others r call r') store' ∧
      r.inst.status = .returnedWaiting ∧ ∃ t, r.reworkTarget = some t ∧ r.resolved r' ≠ some t ∧
        r'.inst.status = .active ∧ ¬ Disciplined svc t r r' := by
  intro svc
  refine ⟨reachable_played .., ?_⟩
  have hstep : (handedBack.next svc 9 3 (Sample.approve (Sample.uuid 1 1))).any (fun x =>
      match x.1 with
      | .call _ r _ r' => r.inst.status == .returnedWaiting && r.reworkTarget == some (Sample.uuid 2 0) &&
          r.resolved r' == some (Sample.uuid 1 1) && r'.inst.status == .active
      | .start _ => false) = true := by decide +kernel
  obtain ⟨⟨op, store'⟩, hnext, hcall⟩ := (Option.any_eq_true _ _).1 hstep
  obtain ⟨others, r, r', rfl, -⟩ := Store.call_of_next hnext
  simp only [Bool.and_eq_true, beq_iff_eq] at hcall
  obtain ⟨⟨⟨hwaiting, htarget⟩, hresolved⟩, hactive⟩ := hcall
  have hne : r.resolved r' ≠ some (Sample.uuid 2 0) := by
    rw [hresolved]
    decide
  refine ⟨others, r, _, r', store', Store.commits_of_next hnext, hwaiting, _, htarget, hne, hactive, fun hd => ?_⟩
  have hs := (hd.others hne).1
  rw [hactive, hwaiting] at hs
  cases hs

/-- A signal to the rework's activity keeps the discipline. -/
theorem rework_disciplined_iff_resumed :
    let svc := Sample.service "14c8fa4f763de28e75132a73bcb198d39bd9b72a7d08c2ac1aa56577605b44fd"
    ∃ others r call r' store', Commits svc handedBack (.call others r call r') store' ∧
      r.inst.status = .returnedWaiting ∧ ∃ t, r.reworkTarget = some t ∧ r.resolved r' = some t ∧
        Disciplined svc t r r' := by
  intro svc
  have hstep : (handedBack.next svc 9 3 (Sample.approve (Sample.uuid 2 0))).any (fun x =>
      match x.1 with
      | .call _ r call r' => r.inst.status == .returnedWaiting && r.reworkTarget == some (Sample.uuid 2 0) &&
          r.resolved r' == some (Sample.uuid 2 0) && call.isSignal
      | .start _ => false) = true := by decide +kernel
  obtain ⟨⟨op, store'⟩, hnext, hcall⟩ := (Option.any_eq_true _ _).1 hstep
  obtain ⟨others, r, r', rfl, -⟩ := Store.call_of_next hnext
  simp only [Bool.and_eq_true, beq_iff_eq] at hcall
  obtain ⟨⟨⟨hwaiting, htarget⟩, hresolved⟩, hsignal⟩ := hcall
  have hcommit := Store.commits_of_next hnext
  obtain ⟨t, ht, hiff⟩ := rework_disciplined_iff (reachable_played ..) hcommit hwaiting
  obtain rfl : t = Sample.uuid 2 0 := Option.some.inj (ht.symm.trans htarget)
  refine ⟨others, r, _, r', store', hcommit, hwaiting, _, ht, hresolved, hiff.2 fun id hid => .inl ⟨hsignal, ?_⟩⟩
  exact Option.some.inj (hid.symm.trans hresolved)

end Fusions.Hetuflow
