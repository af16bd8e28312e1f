import Fusions.Hetuflow.Service.Sessions
import Fusions.Hetuflow.Service.Sources

/-! The log under its unique numbers: an append takes the number read right before it, so at most one open
transaction has appended, and its numbers follow those of the committed log. -/
namespace Fusions.Hetuflow
open Fusions.Library Program

/-- The number of the event that a statement appends. -/
def Stmt.number {β : Type} : Stmt β → Option Int
  | .appendEvent seq .. => some seq
  | _ => none

/-- The number that a statement reads for the next event. -/
def Stmt.reads {β : Type} : Stmt β → β → Option Int
  | .nextSeq, n => some n
  | _, _ => none

/-- Every append takes the number that the statement right before it read. -/
def Numbered {α : Type} (p : Prog α) (last : Option Int) : Prop :=
  p.Chained Stmt.reads (fun q last => ∀ n, q.number = some n → last = some n) last

section
variable {α β : Type} {p : Prog α} {P : Uuid → Prop}

theorem numbered_stmt {q : Stmt β} (hq : q.number = none) (last : Option Int) : Numbered (stmt q) last :=
  ⟨fun n hn => by simp [hq] at hn, fun _ => trivial⟩

theorem Numbered.bind {f : α → Prog β} {last : Option Int} (hp : Numbered p last)
    (hf : ∀ a last, Numbered (f a) last) : Numbered (p >>= f) last :=
  Chained.bind hp hf

/-- What is built from blocks reads a number before each append. -/
theorem numbered_of_built (h : p.BuiltFrom (Block fun _ => True) P) (last : Option Int) : Numbered p last := by
  refine Chained.of_built h (fun q hq last => ?_) last
  cases hq with
  | @stmt _ q hplain =>
    refine numbered_stmt ?_ last
    cases q <;> first | rfl | cases hplain
  | append => exact ⟨nofun, fun n => ⟨fun m hm => hm, fun _ => trivial⟩⟩

theorem numbered_ofExcept (x : Except FlowError α) (last : Option Int) : Numbered (Program.ofExcept x) last :=
  numbered_of_built (P := fun _ => True) (.ofExcept x) last

end

namespace WorkflowService
variable {svc : WorkflowService} {fuel : Nat}

private theorem numbered_signalAdvance (cmd : SignalCommand) (status : WorkflowStatus) (ctx : InstanceCtx)
    (activity : ActivityInstance) (node : WorkflowNode) (last : Option Int) :
    Numbered (svc.signalAdvance fuel cmd status ctx activity node) last := by
  have hcomplete : ∀ last, Numbered (completeActivity activity (signalResult cmd.signal) cmd.actorUserId
      cmd.reviewNotes) last := fun last => .bind (numbered_stmt rfl last) fun hit last =>
    numbered_of_built (P := fun _ => True) (.ite (.bind (built_stmt rfl) fun _ => built_append trivial) (.fail _)) last
  refine .bind (numbered_of_built (P := fun _ => True) (built_applyContextWrites trivial) last) fun ctx last => ?_
  refine .bind (numbered_of_built (P := fun _ => True) (built_append trivial) last) fun _ last => ?_
  refine .bind (hcomplete last) fun _ last => ?_
  refine numbered_of_built (P := (· = activity.id)) (.bind (built_resumeIfWaiting trivial) fun _ => ?_) last
  exact .bind (built_applyOutcome fun _ => trivial) fun _ => .bind built_reload fun _ =>
    .bind (built_stmt rfl) fun _ => .pure _

theorem numbered_signal (cmd : SignalCommand) (last : Option Int) : Numbered (svc.signal fuel cmd) last := by
  unfold signal
  split
  · trivial
  refine .bind (numbered_stmt rfl last) fun found last => ?_
  cases found with
  | none => trivial
  | some inst =>
    refine .bind (numbered_stmt rfl last) fun seen last => ?_
    split
    · exact numbered_of_built (P := fun _ => True) (.bind (built_stmt rfl) fun _ => .pure _) last
    unfold signalFresh
    split
    · trivial
    refine .bind (numbered_stmt rfl last) fun snapshot last => ?_
    refine .bind (numbered_of_built (P := fun _ => True) built_resolveTargetActivity last) fun activity last => ?_
    refine .bind (numbered_ofExcept _ last) fun node last => .bind (numbered_ofExcept _ last) fun _ last => ?_
    split
    · exact numbered_of_built (P := fun _ => True) (built_signalAssignee trivial) last
    · exact numbered_signalAdvance cmd _ _ activity node last

theorem numbered_onNotificationDelivered (activityId : Uuid) (last : Option Int) :
    Numbered (svc.onNotificationDelivered fuel activityId) last := by
  refine .bind (numbered_stmt rfl last) fun inst last => ?_
  cases inst with
  | none => trivial
  | some inst =>
    dsimp only
    split
    · trivial
    refine .bind (numbered_stmt rfl last) fun activity last => ?_
    cases activity with
    | none => trivial
    | some activity =>
      dsimp only
      split
      · trivial
      refine .bind (numbered_stmt rfl last) fun snapshot last => .bind (numbered_stmt rfl last) fun _ last => ?_
      refine numbered_of_built (P := (· = activity.id)) (.bind (built_stmt rfl) fun _ => ?_) last
      exact .bind (built_append trivial) fun _ => built_applyOutcome fun _ => trivial

theorem numbered_fireTimer (timer : TimerRecord) (last : Option Int) : Numbered (svc.fireTimer fuel timer) last := by
  have htimeout : ∀ ctx activity last, Numbered (svc.fireTimeout fuel ctx activity) last := fun ctx activity last =>
    numbered_of_built (P := (· = activity.id)) (.bind (built_stmt rfl) fun _ => .bind (built_stmt rfl) fun _ =>
      .bind (built_append trivial) fun _ => .bind (built_applyOutcome fun _ => trivial) fun _ => .pure _) last
  refine .bind (numbered_stmt rfl last) fun hit last => ?_
  split
  swap
  · trivial
  refine .bind (numbered_stmt rfl last) fun inst last => ?_
  cases inst with
  | none => trivial
  | some inst =>
    dsimp only
    split
    · trivial
    refine .bind (numbered_stmt rfl last) fun activity last => ?_
    cases activity with
    | none => trivial
    | some activity =>
      dsimp only
      split
      · trivial
      refine .bind (numbered_stmt rfl last) fun snapshot last => .bind (numbered_ofExcept _ last) fun node last => ?_
      refine .bind (numbered_of_built (P := fun _ => True) (built_append trivial) last) fun _ last => ?_
      split
      · exact numbered_of_built (P := fun _ => True) built_fireReminder last
      split
      · exact numbered_of_built (P := fun _ => True) (built_fireEscalation fun _ => trivial) last
      split
      · exact htimeout _ _ last
      · trivial

end WorkflowService

/-- Whatever a transaction runs, its appends take the number read right before them. -/
theorem Task.numbered {svc : WorkflowService} {fuel : Nat} {rows : InstanceRows} {task : Task} {p : Prog Unit}
    (hp : task.program svc fuel rows = some p) (last : Option Int) : Numbered p last := by
  have hforget : ∀ {α : Type} {p : Prog α}, Numbered p last → Numbered p.forget last :=
    fun h => .bind h fun _ _ => trivial
  cases task with
  | call call =>
    cases call with
    | signal cmd =>
      simp only [program, Option.ite_none_right_eq_some] at hp
      obtain ⟨-, hp⟩ := hp
      cases hp
      exact hforget (WorkflowService.numbered_signal cmd last)
    | resubmit scope key =>
      cases hp
      exact hforget (numbered_of_built (P := fun _ => True) (WorkflowService.built_resubmit fun _ => trivial) last)
    | fireTimer id =>
      obtain ⟨t, -, rfl⟩ := Option.map_eq_some_iff.1 hp
      exact hforget (WorkflowService.numbered_fireTimer _ last)
    | onNotificationDelivered id =>
      simp only [program, Option.ite_none_right_eq_some] at hp
      obtain ⟨-, hp⟩ := hp
      cases hp
      exact WorkflowService.numbered_onNotificationDelivered id last
    | onBusinessCallbackDelivered =>
      cases hp
      exact numbered_of_built (P := fun _ => True) (.bind (built_stmt rfl) fun _ => .pure _) last
    | onOutboxDeadLetter id activityType lastError =>
      cases hp
      exact numbered_of_built (P := fun _ => True) (built_onOutboxDeadLetter trivial) last
  | start cmd entryId entryRole =>
    cases hp
    exact hforget (numbered_of_built (P := fun _ => True) (WorkflowService.built_startInserted fun _ => trivial) last)
  | verify scope =>
    cases hp
    exact hforget (numbered_of_built (P := fun _ => True) built_verifyProjection last)

/-- Numbers that go on from `next`, one by one. -/
def Consecutive (next : Int) : List EventRow → Prop
  | [] => True
  | e :: es => e.seq = next ∧ Consecutive (next + 1) es

namespace Consecutive
variable {next : Int} {es : List EventRow} {e : EventRow}

theorem concat (h : Consecutive next es) (he : e.seq = next + es.length) : Consecutive next (es ++ [e]) := by
  induction es generalizing next with
  | nil => exact ⟨by simpa using he, trivial⟩
  | cons x es ih =>
    refine ⟨h.1, ih h.2 ?_⟩
    rw [he, List.length_cons]
    omega

theorem exists_of_lt (h : Consecutive next es) {n : Int} (hle : next ≤ n) (hlt : n < next + es.length) :
    ∃ e ∈ es, e.seq = n := by
  induction es generalizing next with
  | nil =>
    rw [List.length_nil] at hlt
    omega
  | cons x es ih =>
    rw [List.length_cons] at hlt
    by_cases hn : n = next
    · exact ⟨x, List.mem_cons_self, h.1.trans hn.symm⟩
    · obtain ⟨e, he, hseq⟩ := ih h.2 (by omega) (by omega)
      exact ⟨e, List.mem_cons_of_mem _ he, hseq⟩

theorem foldl_max (h : Consecutive (next + 1) es) :
    (es.map EventRow.seq).foldl max next = next + es.length := by
  induction es generalizing next with
  | nil => simp
  | cons x es ih =>
    have hmax : max next x.seq = next + 1 := by rw [h.1]; omega
    rw [List.map_cons, List.foldl_cons, hmax, ih h.2, List.length_cons]
    omega

/-- The transaction's own events move the next number on. -/
theorem nextSeq {p : Pending} {rows : InstanceRows} (h : Consecutive rows.nextSeq p.events) :
    (p.above rows).nextSeq = rows.nextSeq + p.events.length := by
  show ((rows.events ++ p.events).map EventRow.seq).foldl max 0 + 1 = _
  rw [List.map_append, List.foldl_append, foldl_max h]
  unfold InstanceRows.nextSeq
  omega

end Consecutive

/-- A transaction in the queue for the log: its events follow the committed ones, and a number that it has just
read is the next one, unless others have appended since. -/
structure Session.Queued (s : Session) (first : Int) (rows : InstanceRows) : Prop where
  consecutive : Consecutive rows.nextSeq s.pending.events
  numbered : ∃ last, Numbered s.prog last ∧ ∀ n, last = some n → first ≤ n ∧ n ≤ (s.view rows).nextSeq ∧
    (s.pending.events ≠ [] → n = (s.view rows).nextSeq)

/-- The log from number `first` on, without gaps, and one open transaction at most that has appended to it. -/
structure Database.Queues (db : Database) (first : Int) : Prop where
  reached : first ≤ db.rows.nextSeq
  full : ∀ n, first ≤ n → n < db.rows.nextSeq → ∃ e ∈ db.rows.events, e.seq = n
  sessions : ∀ o ∈ db.sessions, o.2.Queued first db.rows
  alone : ∀ o ∈ db.sessions, ∀ p ∈ db.sessions, o.1 ≠ p.1 → o.2.pending.events = [] ∨ p.2.pending.events = []

section
variable {supply : Supply} {β : Type} {q : Stmt β} {b : β} {x x' : Standing}

/-- The number a statement reads is the next one of the rows that its transaction sees. -/
private theorem reads_of_perform (h : perform supply q x = .ok (b, x')) {n : Int} (hn : q.reads b = some n) :
    n = x.view.nextSeq := by
  obtain ⟨tx, htx, -⟩ := perform_ok.1 h
  cases q with
  | nextSeq =>
    cases htx
    exact (Option.some.inj hn).symm
  | _ => cases hn

private theorem appended_cases (q : Stmt β) (now : Time) :
    q.appended now = [] ∧ q.number = none ∨
      ∃ e, q.appended now = [e] ∧ q.number = some e.seq ∧ ∀ b, q.reads b = none := by
  cases q with
  | appendEvent seq => exact .inr ⟨_, rfl, rfl, fun _ => rfl⟩
  | _ => exact .inl ⟨rfl, rfl⟩

end

namespace Session.Queued
variable {s s' : Session} {first : Int} {rows : InstanceRows} {e : Elsewhere}

/-- Nothing appended: the next number is that of the committed log. -/
private theorem view_nextSeq (h : s.pending.events = []) : (s.view rows).nextSeq = rows.nextSeq := by
  show ((rows.events ++ s.pending.events).map EventRow.seq).foldl max 0 + 1 = _
  rw [h, List.append_nil]
  rfl

/-- An event that the unique index admits has the next number. -/
private theorem next_of_admitted (h : s.Queued first rows) (hfull : ∀ n, first ≤ n → n < rows.nextSeq →
    ∃ e ∈ rows.events, e.seq = n) {x : EventRow} (hfree : ∀ e ∈ rows.events, x.seq ≠ e.seq)
    (hread : first ≤ x.seq ∧ x.seq ≤ (s.view rows).nextSeq ∧ (s.pending.events ≠ [] → x.seq = (s.view rows).nextSeq)) :
    x.seq = rows.nextSeq + s.pending.events.length := by
  rw [← h.consecutive.nextSeq]
  by_cases hempty : s.pending.events = []
  · refine Int.le_antisymm hread.2.1 (Int.not_lt.1 fun hlt => ?_)
    have hsame : (s.pending.above rows).nextSeq = rows.nextSeq := view_nextSeq hempty
    obtain ⟨e, he, hseq⟩ := hfull x.seq hread.1 (by rwa [hsame] at hlt)
    exact hfree e he hseq.symm
  · exact hread.2.2 hempty

/-- A step that the unique index admits leaves the transaction in the queue. -/
private theorem advance (h : s.Queued first rows) (hreached : first ≤ rows.nextSeq) (hfull : ∀ n, first ≤ n →
    n < rows.nextSeq → ∃ e ∈ rows.events, e.seq = n) (hstep : s.advance rows e = some s')
    (hfree : ∀ x ∈ s'.pending.events, ∀ e ∈ rows.events, x.seq ≠ e.seq) : s'.Queued first rows := by
  obtain ⟨last, hnumbered, hread⟩ := h.numbered
  obtain ⟨-, -, ⟨m, hp, -, hsame⟩ | ⟨β, q, next, b, hp, hp', -, hperform⟩⟩ := Session.of_advance hstep
  · have hpending : s'.pending = s.pending := congrArg Standing.pending hsame
    rw [hp] at hnumbered
    refine ⟨by rw [hpending]; exact h.consecutive, last, hnumbered, ?_⟩
    simpa only [Session.view, hpending] using hread
  have hevents : s'.pending.events = s.pending.events ++ q.appended s.supply.now := events_of_perform hperform
  rw [hp] at hnumbered
  obtain ⟨hasks, hnext⟩ := hnumbered
  rcases appended_cases q s.supply.now with ⟨hnone, -⟩ | ⟨x, hx, hnumber, hreads⟩
  · rw [hnone, List.append_nil] at hevents
    have hconsecutive : Consecutive rows.nextSeq s'.pending.events := by
      rw [hevents]
      exact h.consecutive
    have hview : (s'.view rows).nextSeq = (s.view rows).nextSeq := by
      show (s'.pending.above rows).nextSeq = (s.pending.above rows).nextSeq
      rw [hconsecutive.nextSeq, h.consecutive.nextSeq, hevents]
    refine ⟨hconsecutive, q.reads b, by rw [hp']; exact hnext b, fun n hn => ?_⟩
    obtain rfl : n = (s.view rows).nextSeq := reads_of_perform hperform hn
    have hle : rows.nextSeq ≤ (s.view rows).nextSeq := by
      show _ ≤ (s.pending.above rows).nextSeq
      rw [h.consecutive.nextSeq]
      omega
    exact ⟨Int.le_trans hreached hle, Int.le_of_eq hview.symm, fun _ => hview.symm⟩
  · rw [hx] at hevents
    refine ⟨?_, none, by rw [hp', ← hreads b]; exact hnext b, nofun⟩
    rw [hevents]
    refine h.consecutive.concat (h.next_of_admitted hfull (hfree x (by simp [hevents])) ?_)
    exact hread x.seq (hasks x.seq hnumber)

end Session.Queued

namespace Database.Queues
variable {svc : WorkflowService} {db db' : Database} {first : Int} {k : Nat} {s s' : Session}

/-- The first event of a transaction that has appended has the next number of the committed log. -/
private theorem head (h : s.Queued first db.rows) (hne : s.pending.events ≠ []) :
    ∃ x ∈ s.pending.events, x.seq = db.rows.nextSeq := by
  have hconsecutive := h.consecutive
  cases hevents : s.pending.events with
  | nil => exact absurd hevents hne
  | cons x es =>
    rw [hevents] at hconsecutive
    exact ⟨x, List.mem_cons_self, hconsecutive.1⟩

private theorem runs (h : db.Queues first) {e : Elsewhere} (hs : (k, s) ∈ db.sessions)
    (hstep : s.advance db.rows e = some s') (hadmits : db.admits k s'.pending = true) :
    { db with sessions := (k, s') :: db.others k : Database }.Queues first := by
  obtain ⟨hothers, hfree⟩ := Bool.and_eq_true_iff.1 hadmits
  have hqueued : s'.Queued first db.rows := (h.sessions _ hs).advance h.reached h.full hstep (apart_iff.1 hfree)
  have hapart : ∀ o ∈ db.others k, s'.pending.events = [] ∨ o.2.pending.events = [] := by
    refine fun o ho => Classical.or_iff_not_imp_left.2 fun hne => Classical.byContradiction fun hne' => ?_
    obtain ⟨x, hx, hxseq⟩ := head hqueued hne
    obtain ⟨y, hy, hyseq⟩ := head (h.sessions o (Database.mem_others.1 ho).1) hne'
    exact Pending.events_apart (List.all_eq_true.1 hothers o ho) x hx y hy (hxseq.trans hyseq.symm)
  refine { h with sessions := ?_, alone := ?_ }
  · exact List.forall_mem_cons.2 ⟨hqueued, fun o ho => h.sessions o (Database.mem_others.1 ho).1⟩
  · intro o ho p hp hne
    rcases List.mem_cons.1 ho with rfl | ho
    · rcases List.mem_cons.1 hp with rfl | hp
      · exact absurd rfl hne
      · exact hapart p hp
    · rcases List.mem_cons.1 hp with rfl | hp
      · exact (hapart o ho).symm
      · exact h.alone o (Database.mem_others.1 ho).1 p (Database.mem_others.1 hp).1 hne

private theorem commits (h : db.Queues first) (hs : (k, s) ∈ db.sessions) :
    (⟨s.view db.rows, db.others k, (k, s) :: db.committed⟩ : Database).Queues first := by
  have hconsecutive := (h.sessions _ hs).consecutive
  have hnext : (s.view db.rows).nextSeq = db.rows.nextSeq + s.pending.events.length := hconsecutive.nextSeq
  have hreached := h.reached
  constructor
  · show first ≤ (s.view db.rows).nextSeq
    omega
  · intro n hn hlt
    have hlt : n < (s.view db.rows).nextSeq := hlt
    by_cases hold : n < db.rows.nextSeq
    · obtain ⟨e, he, hseq⟩ := h.full n hn hold
      exact ⟨e, List.mem_append_left _ he, hseq⟩
    · obtain ⟨e, he, hseq⟩ := hconsecutive.exists_of_lt (Int.not_lt.1 hold) (by rwa [hnext] at hlt)
      exact ⟨e, List.mem_append_right _ he, hseq⟩
  · intro o ho
    obtain ⟨ho, hne⟩ := Database.mem_others.1 ho
    have hqueued := h.sessions o ho
    obtain ⟨last, hnumbered, hread⟩ := hqueued.numbered
    rcases h.alone o ho _ hs hne with hempty | hempty
    · -- what it has read is at most as new as before
      refine ⟨by rw [hempty]; trivial, last, hnumbered, fun n hn => ?_⟩
      have hn := hread n hn
      rw [Session.Queued.view_nextSeq hempty] at hn ⊢
      have hle : n ≤ (s.view db.rows).nextSeq := by omega
      exact ⟨hn.1, hle, fun hne => absurd hempty hne⟩
    · have hsame : (s.view db.rows).nextSeq = db.rows.nextSeq := Session.Queued.view_nextSeq hempty
      have hview : (o.2.view (s.view db.rows)).nextSeq = (o.2.view db.rows).nextSeq := by
        show (o.2.pending.above (s.view db.rows)).nextSeq = (o.2.pending.above db.rows).nextSeq
        rw [Consecutive.nextSeq (hsame ▸ hqueued.consecutive), hqueued.consecutive.nextSeq, hsame]
      refine ⟨hsame ▸ hqueued.consecutive, last, hnumbered, fun n hn => ?_⟩
      rw [hview]
      exact hread n hn
  · exact fun o ho p hp => h.alone o (Database.mem_others.1 ho).1 p (Database.mem_others.1 hp).1

/-- No step of an interleaving lets two transactions append beside each other. -/
theorem step (h : db.Queues first) {turn : Turn} (hstep : db.next svc turn = some db') : db'.Queues first := by
  cases turn with
  | begins k supply fuel task =>
    obtain ⟨-, -, p, hp, rfl⟩ := Database.next_begins.1 hstep
    refine { h with sessions := ?_, alone := ?_ }
    · exact List.forall_mem_cons.2 ⟨⟨trivial, none, Task.numbered hp none, nofun⟩, h.sessions⟩
    · intro o ho p hp hne
      rcases List.mem_cons.1 ho with rfl | ho
      · exact .inl rfl
      rcases List.mem_cons.1 hp with rfl | hp
      · exact .inr rfl
      exact h.alone o ho p hp hne
  | runs k e =>
    obtain ⟨s, s', hs, hadvance, hadmits, rfl⟩ := Database.next_runs.1 hstep
    exact h.runs (Database.mem_of_session hs) hadvance hadmits
  | commits k =>
    obtain ⟨s, u, hs, -, rfl⟩ := Database.next_commits.1 hstep
    exact h.commits (Database.mem_of_session hs)
  | aborts k =>
    obtain ⟨-, rfl⟩ := Database.next_aborts.1 hstep
    exact { h with
      sessions := fun o ho => h.sessions o (Database.mem_others.1 ho).1
      alone := fun o ho p hp => h.alone o (Database.mem_others.1 ho).1 p (Database.mem_others.1 hp).1 }

end Database.Queues
end Fusions.Hetuflow
