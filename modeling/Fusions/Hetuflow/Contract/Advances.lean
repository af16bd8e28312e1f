import Fusions.Hetuflow.Service.Sessions
import Fusions.Hetuflow.Service.Sources
import Fusions.Hetuflow.Contract.Statuses

/-! Who advances an activity: in every interleaving each activity leaves Active in one transaction, and where
the statements that are to take it out of Active find it there, one transaction applies an outcome for it. -/
namespace Fusions.Hetuflow
open Fusions.Library Program

/-- The activity whose change of status a task takes for granted: the counts of a timeout's skip and of the
completion after a delivery are not looked at. -/
def Task.presumes {β : Type} (task : Task) (q : Stmt β) : Option Uuid :=
  match task with
  | .call (.signal _) => none
  | _ => q.takesOut

/-- The activity is Active where its change of status is taken for granted. -/
def Task.finds {β : Type} (task : Task) (q : Stmt β) (view : InstanceRows) : Bool :=
  (task.presumes q).all fun id => view.activities.any (·.isActive id)

/-- The next statement of the transaction finds what its task takes for granted. -/
def Session.finds (s : Session) (rows : InstanceRows) : Bool :=
  match s.prog with
  | .exec q _ => s.task.finds q (s.view rows)
  | _ => true

/-- No completion after a delivery, and no skip at a timeout, misses its activity. -/
def Database.Finds (db : Database) : Turn → Prop
  | .runs k _ => ∀ s, db.session k = some s → s.finds db.rows = true
  | _ => True

/-- A statement of a task that finds what the task takes for granted. -/
def performing (task : Task) (supply : Supply) {β : Type} (q : Stmt β) (x : Standing) :
    Except FlowError (β × Standing) :=
  if task.finds q x.view then perform supply q x else .error (.conflict "")

/-- The other transactions leave alone what a transaction holds; it is marked for an activity only if it has
taken that activity out of Active. -/
def among : Rely Uuid Standing where
  interferes x y := y.pending = x.pending ∧ y.drawn = x.drawn ∧
    (x.pending.Consistent x.rows → y.pending.Consistent y.rows)
  marked id x := x.pending.leaves id = true
  refl _ := ⟨rfl, rfl, id⟩
  trans _ _ _ h k := ⟨k.1.trans h.1, k.2.1.trans h.2.1, k.2.2 ∘ h.2.2⟩

/-- The transaction has taken the activity out of Active. -/
structure Standing.Took (x : Standing) (id : Uuid) : Prop where
  consistent : x.pending.Consistent x.rows
  leaves : x.pending.leaves id = true

section
variable {task : Task} {supply : Supply} {β : Type} {q : Stmt β} {x y : Standing} {b : β} {id : Uuid}

theorem performing_ok (h : performing task supply q x = .ok (b, y)) :
    task.finds q x.view = true ∧ perform supply q x = .ok (b, y) := by
  unfold performing at h
  split at h
  · next hfinds => exact ⟨hfinds, h⟩
  · cases h

theorem Standing.Took.interferes (h : x.Took id) (hxy : among.interferes x y) : y.Took id :=
  ⟨hxy.2.2 h.consistent, by rw [hxy.1]; exact h.leaves⟩

theorem Standing.Took.performing (h : x.Took id) (hq : performing task supply q x = .ok (b, y)) : y.Took id :=
  ⟨consistent_of_perform h.consistent (performing_ok hq).2, leaves_of_perform h.consistent (performing_ok hq).2 h.leaves⟩

/-- A program that applies nothing. -/
theorem withstands_idle {α : Type} {p : Prog α} (h : p.BuiltFrom (Block fun _ => True) fun _ => False)
    (hx : x.pending.Consistent x.rows) :
    p.Withstands (performing task supply) among (fun _ t => t.pending.Consistent t.rows) x :=
  (marks_of_built h).withstands (fun _ _ hst => hst.2.2)
    (fun _ _ _ _ hs hq => consistent_of_perform hs (performing_ok hq).2) (fun _ _ hm => hm.elim) hx

/-- A program that applies outcomes for one activity, once the transaction has taken it out of Active. -/
theorem withstands_taken {α : Type} {p : Prog α} (h : p.BuiltFrom (Block fun _ => True) (· = id)) (hx : x.Took id) :
    p.Withstands (performing task supply) among (fun _ t => t.Took id) x :=
  (marks_of_built h).withstands (fun _ _ hst hs => hs.interferes hst) (fun _ _ _ _ hs hq => hs.performing hq)
    (fun m t hm ht => by cases hm; exact ht.leaves) hx

/-- A statement that takes an activity out of Active, where its task takes that for granted. -/
theorem withstands_presumed (hq : task.presumes q = some id) (htakes : q.takesOut = some id)
    (hx : x.pending.Consistent x.rows) :
    (stmt q : Prog β).Withstands (performing task supply) among (fun _ t => t.Took id) x := by
  refine .stmt fun t hxt b t' hok u htu => ?_
  obtain ⟨hfinds, hperform⟩ := performing_ok hok
  have ht := hxt.2.2 hx
  have hactive : t.view.activities.any (·.isActive id) = true := by
    unfold Task.finds at hfinds
    rwa [hq] at hfinds
  have htook : t'.Took id := ⟨consistent_of_perform ht hperform, leaves_of_takesOut htakes hactive hperform⟩
  exact htook.interferes htu

/-- A completion whose count is looked at: the signal goes on only where it took the activity out. -/
theorem withstands_completeActivity {activity : ActivityInstance} {result : Option String} {actorUserId : Int}
    {notes : Option String} (hx : x.pending.Consistent x.rows) :
    (completeActivity activity result actorUserId notes).Withstands (performing task supply) among
      (fun _ t => t.Took activity.id) x := by
  have hcas : (stmt (.completeActivityCas activity.id (result.bind activityResultFromStr) actorUserId notes) :
      Prog Bool).Withstands (performing task supply) among
        (fun hit t => if hit then t.Took activity.id else True) x := by
    refine .stmt fun t hxt hit t' hok u htu => ?_
    have ht := hxt.2.2 hx
    have hperform := (performing_ok hok).2
    cases hit with
    | false => trivial
    | true =>
      have htook : t'.Took activity.id :=
        ⟨consistent_of_perform ht hperform, leaves_of_takesOut rfl (active_of_completed hperform) hperform⟩
      exact htook.interferes htu
  refine hcas.andThen fun hit t ht => ?_
  cases hit with
  | false => trivial
  | true => exact withstands_taken (.bind (built_stmt rfl) fun _ => (built_append trivial)) ht

end

section
variable {svc : WorkflowService} {task : Task} {supply : Supply} {x : Standing} {fuel : Nat}

private theorem withstands_signalAdvance (cmd : SignalCommand) (status : WorkflowStatus) (ctx : InstanceCtx)
    (activity : ActivityInstance) (node : WorkflowNode) (hx : x.pending.Consistent x.rows) :
    (svc.signalAdvance fuel cmd status ctx activity node).Withstands (performing task supply) among
      (fun _ t => t.pending.Consistent t.rows) x := by
  refine (withstands_idle (built_applyContextWrites trivial) hx).andThen fun ctx t ht => ?_
  refine (withstands_idle (built_append trivial) ht).andThen fun _ t ht => ?_
  refine (withstands_completeActivity ht).andThen fun _ t ht => ?_
  refine (withstands_taken (built_resumeIfWaiting trivial) ht).andThen fun _ t ht => ?_
  refine (withstands_taken (WorkflowService.built_applyOutcome fun _ => trivial) ht).andThen fun _ t ht => ?_
  exact withstands_idle (.bind built_reload fun _ => .bind (built_stmt rfl) fun _ => .pure _) ht.consistent

private theorem withstands_signal (cmd : SignalCommand) (hx : x.pending.Consistent x.rows) :
    (svc.signal fuel cmd).Withstands (performing task supply) among (fun _ t => t.pending.Consistent t.rows) x := by
  unfold WorkflowService.signal
  split
  · trivial
  refine (withstands_idle (built_stmt rfl) hx).andThen fun found t ht => ?_
  cases found with
  | none => trivial
  | some inst =>
    refine (withstands_idle (built_stmt rfl) ht).andThen fun seen t ht => ?_
    split
    · exact withstands_idle (.bind (built_stmt rfl) fun _ => .pure _) ht
    unfold WorkflowService.signalFresh
    split
    · trivial
    refine (withstands_idle (built_stmt rfl) ht).andThen fun snapshot t ht => ?_
    refine (withstands_idle built_resolveTargetActivity ht).andThen fun activity t ht => ?_
    refine (withstands_idle (.ofExcept _) ht).andThen fun node t ht => ?_
    refine (withstands_idle (.ofExcept _) ht).andThen fun _ t ht => ?_
    split
    · exact withstands_idle (built_signalAssignee trivial) ht
    · exact withstands_signalAdvance cmd _ _ activity node ht

private theorem withstands_fireTimeout (hpresumes : ∀ id, task.presumes (.skipActivityForTimeout id) = some id)
    (ctx : InstanceCtx) (activity : ActivityInstance) (hx : x.pending.Consistent x.rows) :
    (svc.fireTimeout fuel ctx activity).Withstands (performing task supply) among
      (fun _ t => t.pending.Consistent t.rows) x := by
  refine (withstands_presumed (hpresumes activity.id) rfl hx).andThen fun _ t ht => ?_
  refine (withstands_taken ?_ ht).mono fun _ t ht => ht.consistent
  exact .bind (built_stmt rfl) fun _ => .bind (built_append trivial) fun _ =>
    .bind (WorkflowService.built_applyOutcome fun _ => trivial) fun _ => .pure _

private theorem withstands_fireTimer (hpresumes : ∀ id, task.presumes (.skipActivityForTimeout id) = some id)
    (timer : TimerRecord) (hx : x.pending.Consistent x.rows) :
    (svc.fireTimer fuel timer).Withstands (performing task supply) among
      (fun _ t => t.pending.Consistent t.rows) x := by
  refine (withstands_idle (built_stmt rfl) hx).andThen fun hit t ht => ?_
  split
  swap
  · exact withstands_idle (.pure _) ht
  refine (withstands_idle (built_stmt rfl) ht).andThen fun inst t ht => ?_
  cases inst with
  | none => exact withstands_idle (.pure _) ht
  | some inst =>
    dsimp only
    split
    · exact withstands_idle (.pure _) ht
    refine (withstands_idle (built_stmt rfl) ht).andThen fun activity t ht => ?_
    cases activity with
    | none => exact withstands_idle (.pure _) ht
    | some activity =>
      dsimp only
      split
      · exact withstands_idle (.pure _) ht
      refine (withstands_idle (built_stmt rfl) ht).andThen fun snapshot t ht => ?_
      refine (withstands_idle (.ofExcept _) ht).andThen fun node t ht => ?_
      refine (withstands_idle (built_append trivial) ht).andThen fun _ t ht => ?_
      split
      · exact withstands_idle WorkflowService.built_fireReminder ht
      split
      · exact withstands_idle (WorkflowService.built_fireEscalation fun _ => trivial) ht
      split
      · exact withstands_fireTimeout hpresumes _ activity ht
      · trivial

private theorem withstands_onNotificationDelivered
    (hpresumes : ∀ id result by' notes, task.presumes (.completeActivityCas id result by' notes) = some id)
    (activityId : Uuid) (hx : x.pending.Consistent x.rows) :
    (svc.onNotificationDelivered fuel activityId).Withstands (performing task supply) among
      (fun _ t => t.pending.Consistent t.rows) x := by
  refine (withstands_idle (built_stmt rfl) hx).andThen fun inst t ht => ?_
  cases inst with
  | none => exact withstands_idle (.pure _) ht
  | some inst =>
    dsimp only
    split
    · exact withstands_idle (.pure _) ht
    refine (withstands_idle (built_stmt rfl) ht).andThen fun activity t ht => ?_
    cases activity with
    | none => exact withstands_idle (.pure _) ht
    | some activity =>
      dsimp only
      split
      · exact withstands_idle (.pure _) ht
      refine (withstands_idle (built_stmt rfl) ht).andThen fun snapshot t ht => ?_
      refine (withstands_presumed (hpresumes activity.id ..) rfl ht).andThen fun _ t ht => ?_
      refine (withstands_taken (.bind (built_stmt rfl) fun _ => .bind (built_append trivial) fun _ => ?_) ht).mono
        fun _ t ht => ht.consistent
      exact WorkflowService.built_applyOutcome fun _ => trivial

/-- Whatever a transaction runs, it applies outcomes only for an activity that it took out of Active. -/
theorem Task.withstands {rows : InstanceRows} {p : Prog Unit} (hp : task.program svc fuel rows = some p)
    (hx : x.pending.Consistent x.rows) :
    p.Withstands (performing task supply) among (fun _ t => t.pending.Consistent t.rows) x := by
  have hforget : ∀ {α : Type} {p : Prog α}, p.Withstands (performing task supply) among
      (fun _ t => t.pending.Consistent t.rows) x → p.forget.Withstands (performing task supply) among
        (fun _ t => t.pending.Consistent t.rows) x :=
    fun h => h.andThen fun _ _ ht => withstands_idle (.pure _) ht
  cases task with
  | call call =>
    cases call with
    | signal cmd =>
      simp only [program, Option.ite_none_right_eq_some] at hp
      obtain ⟨-, hp⟩ := hp
      cases hp
      exact hforget (withstands_signal cmd hx)
    | resubmit scope key =>
      cases hp
      exact hforget (withstands_idle (WorkflowService.built_resubmit fun _ => trivial) hx)
    | fireTimer id =>
      obtain ⟨t, -, rfl⟩ := Option.map_eq_some_iff.1 hp
      exact hforget (withstands_fireTimer (fun _ => rfl) _ hx)
    | onNotificationDelivered id =>
      simp only [program, Option.ite_none_right_eq_some] at hp
      obtain ⟨-, hp⟩ := hp
      cases hp
      exact withstands_onNotificationDelivered (fun _ _ _ _ => rfl) id hx
    | onBusinessCallbackDelivered =>
      cases hp
      exact withstands_idle (.bind (built_stmt rfl) fun _ => .pure _) hx
    | onOutboxDeadLetter id activityType lastError =>
      cases hp
      exact withstands_idle (built_onOutboxDeadLetter trivial) hx
  | start cmd entryId entryRole =>
    cases hp
    exact hforget (withstands_idle (WorkflowService.built_startInserted fun _ => trivial) hx)
  | verify scope =>
    cases hp
    exact hforget (withstands_idle built_verifyProjection hx)

end

namespace Pending
variable {p q : Pending} {rows : InstanceRows}

/-- A commit beside a transaction that holds other rows. -/
theorem Consistent.commit (hp : p.Consistent rows) (hq : q.Consistent rows)
    (happart : ∀ a ∈ p.activities, ∀ b ∈ q.activities, a.id ≠ b.id) : p.Consistent (q.above rows) := by
  refine ⟨hq.view_nodup, hp.held_nodup, fun a ha c hc hid => ?_⟩
  rcases hq.mem_view.1 hc with hc | ⟨hc, -⟩
  · exact absurd hid.symm (happart a ha c hc)
  · exact hp.versions a ha c hc hid

end Pending

/-- An activity that is no longer Active. -/
def InstanceRows.Settled (r : InstanceRows) (id : Uuid) : Prop :=
  ∃ a ∈ r.activities, a.id = id ∧ a.status ≠ .active

/-- What a transaction that commits has taken out of Active is settled from then on, and what was, stays. -/
theorem settled_of_commit {p : Pending} {rows : InstanceRows} {id : Uuid} (hp : p.Consistent rows)
    (h : p.leaves id = true ∨ rows.Settled id) : (p.above rows).Settled id := by
  rcases h with h | ⟨a, ha, hid, hs⟩
  · obtain ⟨a, ha, hid, hs⟩ := Pending.leaves_iff.1 h
    exact ⟨a, hp.mem_view.2 (.inl ha), hid, hs⟩
  · refine ⟨a, hp.mem_view.2 (.inr ⟨ha, fun b hb hbid => ?_⟩), hid, hs⟩
    exact hs (hp.versions b hb a ha hbid.symm).1

/-- What is settled, no transaction takes out of Active. -/
theorem not_leaves_of_settled {p : Pending} {rows : InstanceRows} {id : Uuid} (hp : p.Consistent rows)
    (h : rows.Settled id) : p.leaves id = false := by
  obtain ⟨c, hc, hid, hs⟩ := h
  refine Bool.eq_false_iff.2 fun hleaves => ?_
  obtain ⟨a, ha, haid, -⟩ := Pending.leaves_iff.1 hleaves
  exact hs (hp.versions a ha c hc (hid.trans haid.symm)).1

/-- Two transactions that take no activity out of Active both. -/
def Session.LeaveApart (s t : Session) : Prop := ∀ id, s.pending.leaves id = true → t.pending.leaves id = false

/-- Two transactions that apply no outcome for one activity both. -/
def Session.ApplyApart (s t : Session) : Prop := ∀ id ∈ s.applied, id ∉ t.applied

/-- Open transactions hold versions of active rows, each its own ones, and what a committed one has taken out
of Active is settled. -/
structure Database.Kept (db : Database) : Prop where
  nodup : (db.rows.activities.map ActivityRow.id).Nodup
  sessions : ∀ o ∈ db.sessions, o.2.pending.Consistent db.rows
  apart : ∀ o ∈ db.sessions, ∀ p ∈ db.sessions, o.1 ≠ p.1 →
    ∀ a ∈ o.2.pending.activities, ∀ b ∈ p.2.pending.activities, a.id ≠ b.id
  settled : ∀ o ∈ db.committed, ∀ id, o.2.pending.leaves id = true → db.rows.Settled id
  once : db.committed.Pairwise fun o p => o.2.LeaveApart p.2

section
variable {svc : WorkflowService} {unique : Bool} {db db' : Database} {s s' : Session} {k : Nat}

theorem Database.nextUnder_runs {e : Elsewhere} (h : db.nextUnder svc unique (.runs k e) = some db') :
    ∃ s s', db.session k = some s ∧ s.advance db.rows e = some s' ∧
      (∀ o ∈ db.others k, ∀ a ∈ s'.pending.activities, ∀ b ∈ o.2.pending.activities, a.id ≠ b.id) ∧
      db' = { db with sessions := (k, s') :: db.others k } := by
  simp only [nextUnder, Option.bind_eq_bind, Option.bind_eq_some_iff, Option.ite_none_right_eq_some,
    Option.some.injEq] at h
  obtain ⟨s, hs, s', hs', hadmits, rfl⟩ := h
  refine ⟨s, s', hs, hs', fun o ho => ?_, rfl⟩
  have hcompatible := List.all_eq_true.1 (Bool.and_eq_true_iff.1 hadmits).1 o ho
  have happart := Pending.activities_apart hcompatible
  cases unique <;> exact happart

namespace Database.Kept

private theorem begins (h : db.Kept) (hs : s.pending = .none) :
    { db with sessions := (k, s) :: db.sessions : Database }.Kept := by
  refine { h with sessions := ?_, apart := ?_ }
  · refine List.forall_mem_cons.2 ⟨?_, h.sessions⟩
    rw [hs]
    exact .none h.nodup
  · have hnone : ∀ a, a ∉ s.pending.activities := by
      rw [hs]
      exact fun _ => List.not_mem_nil
    intro o ho p hp hne a ha b hb
    rcases List.mem_cons.1 ho with rfl | ho
    · exact absurd ha (hnone a)
    rcases List.mem_cons.1 hp with rfl | hp
    · exact absurd hb (hnone b)
    exact h.apart o ho p hp hne a ha b hb

private theorem runs (h : db.Kept) {e : Elsewhere} (hs : (k, s) ∈ db.sessions) (hstep : s.advance db.rows e = some s')
    (happart : ∀ o ∈ db.others k, ∀ a ∈ s'.pending.activities, ∀ b ∈ o.2.pending.activities, a.id ≠ b.id) :
    { db with sessions := (k, s') :: db.others k : Database }.Kept := by
  refine { h with sessions := ?_, apart := ?_ }
  · refine List.forall_mem_cons.2 ⟨?_, fun o ho => h.sessions o (Database.mem_others.1 ho).1⟩
    have hconsistent := h.sessions _ hs
    obtain ⟨-, -, ⟨m, -, -, hsame⟩ | ⟨β, q, next, b, -, -, -, hperform⟩⟩ := Session.of_advance hstep
    · show (s'.standing db.rows e).pending.Consistent db.rows
      rw [hsame]
      exact hconsistent
    · exact consistent_of_perform (x := s.standing db.rows e) hconsistent hperform
  · intro o ho p hp hne a ha b hb
    rcases List.mem_cons.1 ho with rfl | ho
    · rcases List.mem_cons.1 hp with rfl | hp
      · exact absurd rfl hne
      · exact happart p hp a ha b hb
    · rcases List.mem_cons.1 hp with rfl | hp
      · exact (happart o ho b hb a ha).symm
      · exact h.apart o (Database.mem_others.1 ho).1 p (Database.mem_others.1 hp).1 hne a ha b hb

private theorem commits (h : db.Kept) (hs : (k, s) ∈ db.sessions) :
    (⟨s.view db.rows, db.others k, (k, s) :: db.committed⟩ : Database).Kept := by
  have hconsistent := h.sessions _ hs
  constructor
  · exact hconsistent.view_nodup
  · intro o ho
    obtain ⟨ho, hne⟩ := Database.mem_others.1 ho
    exact (h.sessions o ho).commit hconsistent (h.apart o ho _ hs hne)
  · exact fun o ho p hp => h.apart o (Database.mem_others.1 ho).1 p (Database.mem_others.1 hp).1
  · intro o ho id hleaves
    refine settled_of_commit hconsistent ?_
    rcases List.mem_cons.1 ho with rfl | ho
    · exact .inl hleaves
    · exact .inr (h.settled o ho id hleaves)
  · refine List.pairwise_cons.2 ⟨fun o ho id hleaves => ?_, h.once⟩
    refine Bool.eq_false_iff.2 fun hother => ?_
    rw [not_leaves_of_settled hconsistent (h.settled o ho id hother)] at hleaves
    cases hleaves

private theorem aborts (h : db.Kept) : { db with sessions := db.others k : Database }.Kept :=
  { h with
    sessions := fun o ho => h.sessions o (Database.mem_others.1 ho).1
    apart := fun o ho p hp => h.apart o (Database.mem_others.1 ho).1 p (Database.mem_others.1 hp).1 }

theorem step (h : db.Kept) {turn : Turn} (hstep : db.nextUnder svc unique turn = some db') : db'.Kept := by
  cases turn with
  | begins k supply fuel task =>
    obtain ⟨-, -, p, -, rfl⟩ := Database.next_begins.1 hstep
    exact h.begins rfl
  | runs k e =>
    obtain ⟨s, s', hs, hadvance, happart, rfl⟩ := Database.nextUnder_runs hstep
    exact h.runs (Database.mem_of_session hs) hadvance happart
  | commits k =>
    have hnext : db.next svc (.commits k) = some db' := hstep
    obtain ⟨s, u, hs, -, rfl⟩ := Database.next_commits.1 hnext
    exact h.commits (Database.mem_of_session hs)
  | aborts k =>
    have hnext : db.next svc (.aborts k) = some db' := hstep
    obtain ⟨-, rfl⟩ := Database.next_aborts.1 hnext
    exact h.aborts

end Database.Kept

theorem kept_of_reachable (h : (readCommitted svc unique).Reachable db) : db.Kept := by
  refine h.invariant (P := Database.Kept) ?_ fun _ _ _ _ hdb hstep _ => hdb.step hstep
  rintro db ⟨hkeyed, hsessions, hcommitted⟩
  exact ⟨hkeyed.activities, by simp [hsessions], by simp [hsessions], by simp [hcommitted], by simp [hcommitted]⟩

/-- A transaction has applied outcomes only for what it took out of Active, and will not apply others. -/
structure Session.Sourced (s : Session) (rows : InstanceRows) : Prop where
  applied : ∀ id ∈ s.applied, s.pending.leaves id = true
  goesOn : ∀ e, s.prog.Withstands (performing s.task s.supply) among (fun _ t => t.pending.Consistent t.rows)
    (s.standing rows e)

namespace Session.Sourced

/-- The other transactions do not matter. -/
theorem interferes {rows rows' : InstanceRows} (h : s.Sourced rows)
    (hrows : s.pending.Consistent rows → s.pending.Consistent rows') : s.Sourced rows' :=
  ⟨h.applied, fun e => (h.goesOn e).interferes ⟨rfl, rfl, hrows⟩⟩

theorem advance {rows : InstanceRows} {e : Elsewhere} (h : s.Sourced rows) (hconsistent : s.pending.Consistent rows)
    (hfinds : s.finds rows = true) (hstep : s.advance rows e = some s') : s'.Sourced rows := by
  obtain ⟨htask, hsupply, ⟨m, hp, happlied, hsame⟩ | ⟨β, q, next, b, hp, hp', happlied, hperform⟩⟩ :=
    Session.of_advance hstep
  · have hpending : s'.pending = s.pending := congrArg Standing.pending hsame
    have hwithstands := h.goesOn
    rw [hp] at hwithstands
    constructor
    · rw [happlied, hpending]
      refine List.forall_mem_cons.2 ⟨?_, h.applied⟩
      exact (hwithstands e _ (among.refl _)).1
    · intro e'
      rw [htask, hsupply]
      refine ((hwithstands e _ (among.refl _)).2).interferes ?_
      have hdrawn : s'.drawn = s.drawn := congrArg Standing.drawn hsame
      refine ⟨hpending, hdrawn, fun hx => ?_⟩
      show s'.pending.Consistent rows
      rw [hpending]
      exact hx
  · have hwithstands := h.goesOn e
    rw [hp] at hwithstands
    constructor
    · rw [happlied]
      exact fun id hid => leaves_of_perform (x := s.standing rows e) hconsistent hperform (h.applied id hid)
    · intro e'
      have hfound : s.task.finds q (s.view rows) = true := by
        unfold Session.finds at hfinds
        rwa [hp] at hfinds
      have hok : performing s.task s.supply q (s.standing rows e) = .ok (b, s'.standing rows e) :=
        (if_pos hfound).trans hperform
      rw [htask, hsupply, hp']
      exact (hwithstands _ (among.refl _) b _ hok).interferes ⟨rfl, rfl, id⟩

end Session.Sourced

/-- Every transaction has applied outcomes only for what it took out of Active. -/
structure Database.Sourced (db : Database) : Prop where
  kept : db.Kept
  sessions : ∀ o ∈ db.sessions, o.2.Sourced db.rows
  committed : ∀ o ∈ db.committed, ∀ id ∈ o.2.applied, o.2.pending.leaves id = true

theorem Database.Sourced.step (h : db.Sourced) {turn : Turn} (hstep : db.nextUnder svc unique turn = some db')
    (hfinds : db.Finds turn) : db'.Sourced := by
  refine ⟨h.kept.step hstep, ?_, ?_⟩
  · cases turn with
    | begins k supply fuel task =>
      obtain ⟨-, -, p, hp, rfl⟩ := Database.next_begins.1 hstep
      refine List.forall_mem_cons.2 ⟨⟨nofun, fun e => ?_⟩, h.sessions⟩
      exact Task.withstands hp (.none h.kept.nodup)
    | runs k e =>
      obtain ⟨s, s', hs, hadvance, -, rfl⟩ := Database.nextUnder_runs hstep
      have hmem := Database.mem_of_session hs
      refine List.forall_mem_cons.2 ⟨?_, fun o ho => h.sessions o (Database.mem_others.1 ho).1⟩
      exact (h.sessions _ hmem).advance (h.kept.sessions _ hmem) (hfinds s hs) hadvance
    | commits k =>
      have hnext : db.next svc (.commits k) = some db' := hstep
      obtain ⟨s, u, hs, -, rfl⟩ := Database.next_commits.1 hnext
      have hmem := Database.mem_of_session hs
      intro o ho
      obtain ⟨ho, hne⟩ := Database.mem_others.1 ho
      exact (h.sessions o ho).interferes fun hconsistent =>
        hconsistent.commit (h.kept.sessions _ hmem) (h.kept.apart o ho _ hmem hne)
    | aborts k =>
      have hnext : db.next svc (.aborts k) = some db' := hstep
      obtain ⟨-, rfl⟩ := Database.next_aborts.1 hnext
      exact fun o ho => h.sessions o (Database.mem_others.1 ho).1
  · cases turn with
    | begins k supply fuel task =>
      obtain ⟨-, -, p, -, rfl⟩ := Database.next_begins.1 hstep
      exact h.committed
    | runs k e =>
      obtain ⟨s, s', -, -, -, rfl⟩ := Database.nextUnder_runs hstep
      exact h.committed
    | commits k =>
      have hnext : db.next svc (.commits k) = some db' := hstep
      obtain ⟨s, u, hs, -, rfl⟩ := Database.next_commits.1 hnext
      exact List.forall_mem_cons.2 ⟨(h.sessions _ (Database.mem_of_session hs)).applied, h.committed⟩
    | aborts k =>
      have hnext : db.next svc (.aborts k) = some db' := hstep
      obtain ⟨-, rfl⟩ := Database.next_aborts.1 hnext
      exact h.committed

theorem sourced_of_reachable (h : (readCommitted svc unique).ReachableIf Database.Finds db) : db.Sourced := by
  refine h.invariant (P := Database.Sourced) ?_ fun _ _ _ _ hdb hstep hfinds => hdb.step hstep hfinds
  intro db hinit
  refine ⟨kept_of_reachable (.init hinit), ?_, ?_⟩
  · simp [hinit.2.1]
  · simp [hinit.2.2]

end

/-- In every interleaving, with or without the unique index, each activity leaves Active in at most one committed
transaction; and as long as no completion after a delivery and no skip at a timeout misses its activity, at most one
committed transaction applies an outcome for it. -/
theorem advances_once (svc : WorkflowService) (unique : Bool) :
    (∀ db, (readCommitted svc unique).Reachable db → db.committed.Pairwise fun o p => o.2.LeaveApart p.2) ∧
      ∀ db, (readCommitted svc unique).ReachableIf Database.Finds db →
        db.committed.Pairwise fun o p => o.2.ApplyApart p.2 := by
  refine ⟨fun db h => (kept_of_reachable h).once, fun db h => ?_⟩
  have hsourced := sourced_of_reachable h
  refine hsourced.kept.once.imp_of_mem fun {o p} ho hp hleave id hid hid' => ?_
  have hleaves := hsourced.committed p hp id hid'
  rw [hleave id (hsourced.committed o ho id hid)] at hleaves
  cases hleaves

/-- The unique index only takes interleavings away. -/
theorem reachable_without_index {svc : WorkflowService} {db : Database} (h : (readCommitted svc true).Reachable db) :
    (readCommitted svc false).Reachable db := by
  refine h.invariant (P := (readCommitted svc false).Reachable) ?_ ?_
  · exact fun _ hinit => .init hinit
  intro db turn db' _ hdb hstep _
  suffices hnext : (readCommitted svc false).step db turn db' from hdb.step hnext trivial
  cases turn with
  | runs k e =>
    have hnext : db.next svc (.runs k e) = some db' := (db.nextUnder_true svc _).symm.trans hstep
    obtain ⟨s, s', hs, hadvance, hadmits, rfl⟩ := Database.next_runs.1 hnext
    have hheld : db.admits k { s'.pending with events := [] } = true := by
      refine Bool.and_eq_true_iff.2 ⟨List.all_eq_true.2 fun o ho => ?_, rfl⟩
      have hcompatible := List.all_eq_true.1 (Bool.and_eq_true_iff.1 hadmits).1 o ho
      simp only [Pending.compatible, Bool.and_eq_true] at hcompatible ⊢
      exact ⟨⟨⟨hcompatible.1.1.1, rfl⟩, hcompatible.1.2⟩, hcompatible.2⟩
    simp [readCommitted, Database.nextUnder, hs, hadvance, hheld]
  | begins | commits | aborts => exact hstep

namespace Sample

/-- An instance that waits for the delivery of a notification, on the way from one approval to the next. -/
def notifying : InstanceRows :=
  { insertedRows (Supply.nth 0) ⟨1, "00000000-0000-4000-8000-00000000f001", "00000000-0000-4000-8000-00000000d001",
      definition [approval "a", node "n" (.notification ⟨none, none, [], [], none, none, none⟩), approval "b"]
        [approved "a" "n", ⟨"n", "b", .completed⟩, approved "b" "end"], "REF-1", "order", "42", none, none⟩ with
    activities := [ActivityRow.new "n-1" 1 "n" .notification none 1] }

/-- A delivery of the notification, up to its completion. -/
def delivers : List Turn :=
  .begins 0 (Supply.nth 1) 2 (.call (.onNotificationDelivered "n-1")) :: List.replicate 3 (.runs 0 elsewhere)

end Sample

open Sample in
/-- A notification is delivered while a signal completes it: both transactions advance it, and the next approval is
scheduled twice. -/
theorem delivered_and_signalled : ∃ db, (readCommitted (service "") true).Reachable db ∧
    (readCommitted (service "") false).Reachable db ∧ ¬ db.committed.Pairwise (fun o p => o.2.ApplyApart p.2) ∧
      db.rows.activities.map ActivityRow.activityDefinitionId = ["n", "b", "b"] := by
  have hplay : (System.play (Database.nextUnder (service "") true) (fun _ _ => True) ⟨notifying, [], []⟩
      (delivers ++ .begins 1 (Supply.nth 2) 2 (reviewSignal .completed "n-1") :: List.replicate 17 (.runs 1 elsewhere) ++
        .commits 1 :: List.replicate 9 (.runs 0 elsewhere) ++ [.commits 0])).any (fun db =>
      db.committed.map (fun o => o.2.applied) = [["n-1"], ["n-1"]] ∧
        db.rows.activities.map ActivityRow.activityDefinitionId = ["n", "b", "b"]) = true := by decide +kernel
  obtain ⟨db, hrun, hend⟩ := (Option.any_eq_true _ _).1 hplay
  obtain ⟨happlied, hactivities⟩ := of_decide_eq_true hend
  have hinit : (readCommitted (service "") true).Reachable ⟨notifying, [], []⟩ :=
    .init ⟨⟨by decide, by decide, by decide⟩, rfl, rfl⟩
  have hreachable := hinit.play (fun _ _ _ h => h) hrun
  refine ⟨db, hreachable, reachable_without_index hreachable, fun hapart => ?_, hactivities⟩
  have hpair : (db.committed.map fun o => o.2.applied).Pairwise fun ids ids' => ∀ id ∈ ids, id ∉ ids' :=
    List.pairwise_map.2 hapart
  rw [happlied] at hpair
  exact (List.pairwise_cons.1 hpair).1 _ (List.mem_cons_self ..) "n-1" (List.mem_cons_self ..) (List.mem_cons_self ..)

end Fusions.Hetuflow
