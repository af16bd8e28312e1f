import Fusions.Hetuflow.Service.Sessions
import Fusions.Hetuflow.Contract.Statuses

/-! A due timer is handed to any number of pollers, and fires in one transaction. -/
namespace Fusions.Hetuflow
open Fusions.Library Program

/-- What a timer row may become: a pending one is fired or cancelled, and that is final. -/
structure TimerRow.Ticks (t t' : TimerRow) : Prop where
  id : t'.id = t.id
  slot : (t'.activityInstanceId, t'.timerKind) = (t.activityInstanceId, t.timerKind)
  settled : t.status ≠ .pending → t' = t

namespace TimerRow.Ticks

theorem refl (t : TimerRow) : t.Ticks t := ⟨rfl, rfl, fun _ => rfl⟩

theorem trans {t u v : TimerRow} (h : t.Ticks u) (k : u.Ticks v) : t.Ticks v where
  id := k.id.trans h.id
  slot := k.slot.trans h.slot
  settled hs := by
    obtain rfl := h.settled hs
    exact k.settled hs

end TimerRow.Ticks

/-- The id of the timer that a statement inserts. -/
def Stmt.newTimer {β : Type} (supply : Supply) (drawn : Nat) : Stmt β → Option Uuid
  | .scheduleTimer .. => some (supply.uuid drawn)
  | _ => none

/-- What a statement does to the timers: those it updates settle, and at most one is new. -/
structure Stmt.Settles {β : Type} (q : Stmt β) (supply : Supply) (drawn : Nat) (r r' : InstanceRows)
    (g : TimerRow → TimerRow) (new : List TimerRow) : Prop where
  timers : r'.timers = r.timers.map g ++ new
  ticks : ∀ t, TimerRow.Ticks t (g t)
  idle : ∀ t, q.writesTimer r t = false → g t = t
  writes : ∀ t, q.writesTimer r t = true → t.status = .pending
  fresh : ∀ t ∈ new, q.newTimer supply drawn = some t.id
  single : new.length ≤ 1

section
variable {supply : Supply} {e : Elsewhere} {β : Type} {q : Stmt β} {tx tx' : Tx} {b : β}

private theorem Stmt.Settles.same {drawn : Nat} {r r' : InstanceRows} (h : r'.timers = r.timers)
    (hq : ∀ t, q.writesTimer r t = false) : q.Settles supply drawn r r' (fun t => t) [] :=
  ⟨by simp [h], .refl, fun _ _ => rfl, fun t ht => by simp [hq t] at ht, by simp, by simp⟩

private theorem Stmt.Settles.update {drawn : Nat} {r r' : InstanceRows} {p : TimerRow → Bool} {status : TimerStatus}
    (h : r' = r.updateTimers p status) (hq : ∀ t, q.writesTimer r t = (p t && t.status == .pending)) :
    q.Settles supply drawn r r' (fun t => if p t && t.status == .pending then { t with status := status } else t) []
    where
  timers := by rw [h, List.append_nil]; rfl
  ticks t := by
    split
    · next hp => exact ⟨rfl, rfl, fun hs => by simp [hs] at hp⟩
    · exact .refl t
  idle t ht := by rw [if_neg (by rw [← hq t, ht]; nofun)]
  writes t ht := by
    rw [hq t] at ht
    simpa using (Bool.and_eq_true_iff.1 ht).2
  fresh := by simp
  single := by simp

/-- Every statement settles timers, and inserts at most one. -/
theorem settles_of_exec (h : exec (supply.envWith e) q tx = .ok (b, tx')) :
    ∃ g new, q.Settles supply tx.drawn tx.rows tx'.rows g new := by
  cases q with
  | cancelTimersOfOthers | cancelTimersForActivity | markTimerFired =>
    cases h
    exact ⟨_, [], .update rfl fun t => by simp [Stmt.writesTimer, Bool.and_comm]⟩
  | scheduleTimer id kind =>
    simp only [exec, Tx.scheduleTimer] at h
    split at h
    · cases h
      exact ⟨_, [], .same rfl fun _ => rfl⟩
    · cases h
      refine ⟨fun t => t, [⟨supply.uuid tx.drawn, id, timerKindI16 kind, .pending⟩], by simp; rfl, .refl,
        fun _ _ => rfl, fun _ ht => absurd ht Bool.false_ne_true, fun t ht => ?_, by simp⟩
      rw [List.mem_singleton.1 ht]
      rfl
  | enqueueOutbox row =>
    cases h
    refine ⟨_, [], .same ?_ fun _ => rfl⟩
    simp only [InstanceRows.enqueueOutbox]
    split <;> rfl
  | _ =>
    refine ⟨_, [], .same ?_ fun _ => rfl⟩
    simp only [exec, Tx.casInstance, Tx.casActivities, Tx.insertActivity, Tx.reopen,
      InstanceRows.updateActivities] at h
    repeat' split at h
    all_goals cases h
    all_goals rfl

end

namespace Pending

/-- The timers a transaction holds are versions of pending committed ones, or new. -/
structure Timely (p : Pending) (rows : InstanceRows) : Prop where
  rows_nodup : (rows.timers.map TimerRow.id).Nodup
  held_nodup : (p.timers.map TimerRow.id).Nodup
  versions : ∀ t ∈ p.timers, ∀ c ∈ rows.timers, c.id = t.id → c.status = .pending ∧ c.Ticks t

variable {p : Pending} {rows : InstanceRows}

theorem Timely.none (h : (rows.timers.map TimerRow.id).Nodup) : Timely .none rows :=
  ⟨h, List.nodup_nil, fun _ ht => absurd ht List.not_mem_nil⟩

theorem Timely.view_nodup (h : p.Timely rows) : ((p.above rows).timers.map TimerRow.id).Nodup :=
  nodup_overlay h.held_nodup h.rows_nodup

theorem Timely.mem_view (h : p.Timely rows) {t : TimerRow} :
    t ∈ (p.above rows).timers ↔ t ∈ p.timers ∨ t ∈ rows.timers ∧ ∀ u ∈ p.timers, u.id ≠ t.id :=
  mem_overlay h.held_nodup

/-- A timer as the transaction sees it, against the committed one. -/
theorem Timely.ticks (h : p.Timely rows) {t c : TimerRow} (ht : t ∈ (p.above rows).timers) (hc : c ∈ rows.timers)
    (hid : c.id = t.id) : c.Ticks t := by
  rcases h.mem_view.1 ht with ht | ⟨ht, -⟩
  · exact (h.versions t ht c hc hid).2
  · rw [List.inj_on_of_nodup_map h.rows_nodup ht hc hid.symm]
    exact .refl c

theorem mem_timers_after {β : Type} {q : Stmt β} {view left : InstanceRows} {t : TimerRow} :
    t ∈ (p.after q rows view left).timers ↔ t ∈ left.timers ∧
      ((∃ u ∈ p.timers, u.id = t.id) ∨ (∀ c ∈ rows.timers, c.id ≠ t.id) ∨
        ∃ v ∈ view.timers, v.id = t.id ∧ q.writesTimer view v = true) := by
  simp [after, or_assoc]

theorem timers_apart {p q : Pending} (h : p.compatible q = true) : ∀ t ∈ p.timers, ∀ u ∈ q.timers, t.id ≠ u.id := by
  simp only [compatible, Bool.and_eq_true] at h
  exact apart_iff.1 h.1.2

end Pending

/-- A transaction that holds nothing sees the committed rows. -/
theorem Pending.above_none (rows : InstanceRows) : Pending.none.above rows = rows := by
  simp [Pending.above, Pending.none, overlay]

/-- A statement that hits nothing leaves nothing to hold. -/
theorem Pending.after_none {β : Type} {q : Stmt β} {rows : InstanceRows} (hinst : q.writesInstance rows.inst = false)
    (hactivities : ∀ a ∈ rows.activities, q.writesActivity a = false)
    (htimers : ∀ t ∈ rows.timers, q.writesTimer rows t = false) : Pending.none.after q rows rows rows = .none := by
  have hfree : ∀ {α κ : Type} [BEq κ] [ReflBEq κ] (key : α → κ) (w : α → Bool) (xs : List α),
      (∀ x ∈ xs, w x = false) →
      xs.filter (fun x => !xs.any (fun y => key y == key x) || xs.any fun y => key y == key x && w y) = [] := by
    intro α κ _ _ key w xs hw
    refine List.filter_eq_nil_iff.2 fun x hx => ?_
    have hkey : xs.any (fun y => key y == key x) = true := List.any_eq_true.2 ⟨x, hx, BEq.rfl⟩
    have hnone : xs.any (fun y => key y == key x && w y) = false := by
      refine List.any_eq_false.2 fun y hy => ?_
      simp [hw y hy]
    simp [hkey, hnone]
  simp only [Pending.after, Pending.none, hinst, List.any_nil, Bool.false_or, List.drop_length,
    hfree ActivityRow.id q.writesActivity _ hactivities, hfree TimerRow.id (q.writesTimer rows) _ htimers]
  rfl

section
variable {supply : Supply} {β : Type} {q : Stmt β} {x x' : Standing} {b : β} {id : Uuid}

/-- What a transaction holds fired or cancelled, it keeps so. -/
theorem settled_of_perform (hx : x.pending.Timely x.rows) (h : perform supply q x = .ok (b, x')) {t : TimerRow}
    (ht : t ∈ x.pending.timers) (hs : t.status ≠ .pending) : t ∈ x'.pending.timers := by
  obtain ⟨tx, htx, rfl⟩ := perform_ok.1 h
  obtain ⟨g, new, hsettles⟩ := settles_of_exec htx
  refine Pending.mem_timers_after.2 ⟨?_, .inl ⟨t, ht, rfl⟩⟩
  rw [hsettles.timers, ← (hsettles.ticks t).settled hs]
  exact List.mem_append_left _ (List.mem_map.2 ⟨t, hx.mem_view.2 (.inl ht), by
    rw [(hsettles.ticks t).settled hs]⟩)

theorem timely_of_perform (hx : x.pending.Timely x.rows)
    (hfresh : ∀ t ∈ x.view.timers, q.newTimer supply x.drawn ≠ some t.id) (h : perform supply q x = .ok (b, x')) :
    x'.pending.Timely x'.rows := by
  obtain ⟨tx, htx, rfl⟩ := perform_ok.1 h
  obtain ⟨g, new, hsettles⟩ := settles_of_exec htx
  have hview : x.view = x.pending.above x.rows := rfl
  have hleft : (tx.rows.timers.map TimerRow.id).Nodup := by
    have hids : (x.view.timers.map g).map TimerRow.id = x.view.timers.map TimerRow.id := by
      rw [List.map_map]
      exact List.map_congr_left fun t _ => (hsettles.ticks t).id
    rw [hsettles.timers, List.map_append, hids, List.nodup_append]
    refine ⟨hx.view_nodup, ?_, ?_⟩
    · rw [List.nodup_iff_sublist]
      intro i hi
      have hlength := hi.length_le
      have hsingle := hsettles.single
      simp only [List.length_cons, List.length_nil, List.length_map] at hlength
      omega
    · intro i hi j hj heq
      obtain ⟨t, ht, rfl⟩ := List.mem_map.1 hi
      obtain ⟨u, hu, rfl⟩ := List.mem_map.1 hj
      refine hfresh t ht ?_
      rw [hsettles.fresh u hu]
      exact congrArg some heq.symm
  refine ⟨hx.rows_nodup, hleft.sublist (List.filter_sublist.map _), fun t ht c hc hid => ?_⟩
  obtain ⟨ht, hheld⟩ := Pending.mem_timers_after.1 ht
  rw [hsettles.timers] at ht
  obtain ⟨v, hv, hvid⟩ : ∃ v ∈ (x.pending.above x.rows).timers, v.id = c.id := exists_overlay hc
  rcases List.mem_append.1 ht with ht | ht
  swap
  · refine absurd (hsettles.fresh t ht) ?_
    rw [← hid, ← hvid]
    exact hfresh v hv
  obtain ⟨w, hw, rfl⟩ := List.mem_map.1 ht
  have hwid : (g w).id = w.id := (hsettles.ticks w).id
  obtain rfl : v = w := List.inj_on_of_nodup_map hx.view_nodup hv hw (hvid.trans (hid.trans hwid))
  refine ⟨?_, (hx.ticks hv hc hvid.symm).trans (hsettles.ticks v)⟩
  rcases hx.mem_view.1 hv with hown | ⟨hbase, hfree⟩
  · exact (hx.versions v hown c hc hvid.symm).1
  · obtain rfl : v = c := List.inj_on_of_nodup_map hx.rows_nodup hbase hc hvid
    rcases hheld with ⟨u, hu, huid⟩ | hnone | ⟨u, hu, huid, hwrites⟩
    · exact absurd (huid.trans hwid) (hfree u hu)
    · exact absurd hid (hnone v hc)
    · obtain rfl : u = v := List.inj_on_of_nodup_map hx.view_nodup hu hv (huid.trans hwid)
      exact hsettles.writes u hwrites

/-- A mark that hits leaves the timer fired. -/
theorem fired_of_perform (h : perform supply (.markTimerFired id) x = .ok (true, x')) :
    ∃ t ∈ x'.pending.timers, t.id = id ∧ t.status = .fired := by
  obtain ⟨tx, htx, rfl⟩ := perform_ok.1 h
  have hhit : x.view.timers.any (fun t => t.id == id && t.status == .pending) = true :=
    congrArg Prod.fst (Except.ok.inj htx)
  have hleft : tx.rows = x.view.updateTimers (·.id == id) .fired :=
    congrArg (fun out => out.2.rows) (Except.ok.inj htx).symm
  obtain ⟨t, ht, hpending⟩ := List.any_eq_true.1 hhit
  have hid : t.id = id := by simpa using (Bool.and_eq_true_iff.1 hpending).1
  refine ⟨{ t with status := .fired }, Pending.mem_timers_after.2 ⟨?_, .inr (.inr ⟨t, ht, rfl, ?_⟩)⟩, hid, rfl⟩
  · rw [hleft]
    exact List.mem_map.2 ⟨t, ht, if_pos hpending⟩
  · simpa [Stmt.writesTimer, Bool.and_comm] using hpending

/-- A mark that misses writes nothing. -/
theorem none_of_missed (hx : x.pending = .none) (h : perform supply (.markTimerFired id) x = .ok (false, x')) :
    x'.pending = .none := by
  obtain ⟨tx, htx, rfl⟩ := perform_ok.1 h
  have hmiss : x.view.timers.any (fun t => t.id == id && t.status == .pending) = false :=
    congrArg Prod.fst (Except.ok.inj htx)
  have hleft : tx.rows = x.view.updateTimers (·.id == id) .fired :=
    congrArg (fun out => out.2.rows) (Except.ok.inj htx).symm
  have hsame : x.view = x.rows := by
    show x.pending.above x.rows = x.rows
    rw [hx, Pending.above_none]
  rw [hsame] at hmiss hleft
  have hidle : ∀ t ∈ x.rows.timers, (t.id == id && t.status == .pending) = false := by simpa using hmiss
  have hrows : tx.rows = x.rows := by
    have htimers : (x.rows.timers.map fun t => if t.id == id && t.status == .pending then
        { t with status := .fired } else t) = x.rows.timers :=
      (List.map_congr_left fun t ht => if_neg (by simp [hidle t ht])).trans (List.map_id _)
    rw [hleft, InstanceRows.updateTimers, htimers]
  show x.pending.after _ x.rows x.view tx.rows = .none
  rw [hx, hsame, hrows]
  refine Pending.after_none rfl (fun _ _ => rfl) fun t ht => ?_
  rw [← hidle t ht]
  exact Bool.and_comm ..

end

/-- Where a transaction stands that is to fire a timer: before its mark, after a mark that missed, or holding the
timer fired. -/
inductive Session.Firing (s : Session) (id : Uuid) : Prop where
  | due {next : Bool → Prog Unit} : s.pending = .none → s.prog = .exec (.markTimerFired id) next →
      next false = .done () → s.Firing id
  | missed : s.pending = .none → s.prog = .done () → s.Firing id
  | fired {t : TimerRow} : t ∈ s.pending.timers → t.id = id → t.status = .fired → s.Firing id

/-- The next statement inserts no timer under an id that is taken. -/
def Session.timerKeyFree (s : Session) (rows : InstanceRows) : Bool :=
  match s.prog with
  | .exec q _ => (s.view rows).timers.all fun t => q.newTimer s.supply s.drawn != some t.id
  | _ => true

/-- The primary key of the timers. -/
def Database.TimerKeys (db : Database) : Turn → Prop
  | .runs k _ => (db.session k).all (·.timerKeyFree db.rows) = true
  | _ => True

instance (db : Database) (turn : Turn) : Decidable (db.TimerKeys turn) :=
  match turn with
  | .runs k _ => inferInstanceAs (Decidable ((db.session k).all (·.timerKeyFree db.rows) = true))
  | .begins .. | .commits _ | .aborts _ => .isTrue trivial

section
variable {svc : WorkflowService} {s s' : Session} {rows : InstanceRows} {e : Elsewhere} {id : Uuid}

theorem Session.timely_of_advance (hs : s.pending.Timely rows) (hfree : s.timerKeyFree rows = true)
    (h : s.advance rows e = some s') : s'.pending.Timely rows := by
  obtain ⟨-, -, ⟨m, -, -, hsame⟩ | ⟨β, q, next, b, hp, -, -, hperform⟩⟩ := Session.of_advance h
  · have hpending : s'.pending = s.pending := congrArg Standing.pending hsame
    rwa [hpending]
  · unfold timerKeyFree at hfree
    rw [hp] at hfree
    refine timely_of_perform hs (fun t ht => ?_) hperform
    simpa [standing] using List.all_eq_true.1 hfree t ht

theorem Session.Firing.advance (hs : s.pending.Timely rows) (hfiring : s.Firing id)
    (h : s.advance rows e = some s') : s'.Firing id := by
  obtain ⟨-, -, ⟨m, hp, -, hsame⟩ | ⟨β, q, next, b, hp, hp', -, hperform⟩⟩ := Session.of_advance h
  · have hpending : s'.pending = s.pending := congrArg Standing.pending hsame
    cases hfiring with
    | due _ hdue => cases hp.symm.trans hdue
    | missed _ hdone => cases hp.symm.trans hdone
    | fired ht hid hfired => exact .fired (hpending ▸ ht) hid hfired
  · cases hfiring with
    | due hnone hdue hmiss =>
      cases hp.symm.trans hdue
      cases b with
      | true =>
        obtain ⟨t, ht, hid, hfired⟩ := fired_of_perform hperform
        exact .fired ht hid hfired
      | false => exact .missed (none_of_missed hnone hperform) (hp'.trans hmiss)
    | missed _ hdone => cases hp.symm.trans hdone
    | fired ht hid hfired => exact .fired (settled_of_perform hs hperform ht (by simp [hfired])) hid hfired

/-- A transaction that is to fire a timer begins with the mark. -/
theorem Task.firing {fuel : Nat} {supply : Supply} {p : Prog Unit}
    (h : (Task.call (.fireTimer id)).program svc fuel rows = some p) :
    (⟨.call (.fireTimer id), supply, p, 0, .none, []⟩ : Session).Firing id := by
  obtain ⟨t, ht, rfl⟩ := Option.map_eq_some_iff.1 h
  have hid : t.id = id := by simpa using List.find?_some ht
  rw [← hid]
  exact .due rfl rfl rfl

/-- A committed transaction that was to fire a timer wrote nothing, or the timer is fired; of two, one wrote nothing. -/
structure Database.Punctual (db : Database) : Prop where
  keyed : (db.rows.timers.map TimerRow.id).Nodup
  sessions : ∀ o ∈ db.sessions, o.2.pending.Timely db.rows
  apart : ∀ o ∈ db.sessions, ∀ p ∈ db.sessions, o.1 ≠ p.1 →
    ∀ t ∈ o.2.pending.timers, ∀ u ∈ p.2.pending.timers, t.id ≠ u.id
  firing : ∀ o ∈ db.sessions, ∀ id, o.2.task = .call (.fireTimer id) → o.2.Firing id
  fired : ∀ o ∈ db.committed, ∀ id, o.2.task = .call (.fireTimer id) →
    o.2.pending = .none ∨ ∃ t ∈ db.rows.timers, t.id = id ∧ t.status = .fired
  once : db.committed.Pairwise fun o p => ∀ id, o.2.task = .call (.fireTimer id) →
    p.2.task = .call (.fireTimer id) → o.2.pending = .none ∨ p.2.pending = .none

namespace Database.Punctual
variable {db db' : Database} {k : Nat}

private theorem begins (h : db.Punctual) {supply : Supply} {fuel : Nat} {task : Task} {p : Prog Unit}
    (hp : task.program svc fuel db.rows = some p) :
    { db with sessions := (k, ⟨task, supply, p, 0, .none, []⟩) :: db.sessions : Database }.Punctual := by
  refine { h with sessions := ?_, apart := ?_, firing := ?_ }
  · exact List.forall_mem_cons.2 ⟨.none h.keyed, h.sessions⟩
  · intro o ho p hp hne
    rcases List.mem_cons.1 ho with rfl | ho
    · exact fun t ht => absurd ht List.not_mem_nil
    rcases List.mem_cons.1 hp with rfl | hp
    · exact fun _ _ u hu => absurd hu List.not_mem_nil
    exact h.apart o ho p hp hne
  · refine List.forall_mem_cons.2 ⟨fun id htask => ?_, h.firing⟩
    obtain rfl : task = .call (.fireTimer id) := htask
    exact Task.firing hp

private theorem runs (h : db.Punctual) (hs : (k, s) ∈ db.sessions) (hfree : s.timerKeyFree db.rows = true)
    (hstep : s.advance db.rows e = some s') (hadmits : db.admits k s'.pending = true) :
    { db with sessions := (k, s') :: db.others k : Database }.Punctual := by
  have hothers := (Bool.and_eq_true_iff.1 hadmits).1
  have hapart : ∀ o ∈ db.others k, ∀ t ∈ s'.pending.timers, ∀ u ∈ o.2.pending.timers, t.id ≠ u.id := fun o ho =>
    Pending.timers_apart (List.all_eq_true.1 hothers o ho)
  refine { h with sessions := ?_, apart := ?_, firing := ?_ }
  · exact List.forall_mem_cons.2 ⟨Session.timely_of_advance (h.sessions _ hs) hfree hstep,
      fun o ho => h.sessions o (Database.mem_others.1 ho).1⟩
  · intro o ho p hp hne
    rcases List.mem_cons.1 ho with rfl | ho
    · rcases List.mem_cons.1 hp with rfl | hp
      · exact absurd rfl hne
      · exact hapart p hp
    · rcases List.mem_cons.1 hp with rfl | hp
      · exact fun t ht u hu heq => hapart o ho u hu t ht heq.symm
      · exact h.apart o (Database.mem_others.1 ho).1 p (Database.mem_others.1 hp).1 hne
  · refine List.forall_mem_cons.2 ⟨fun id htask => ?_, fun o ho => h.firing o (Database.mem_others.1 ho).1⟩
    have htask' : s.task = .call (.fireTimer id) := (Session.of_advance hstep).1.symm.trans htask
    exact (h.firing _ hs id htask').advance (h.sessions _ hs) hstep

/-- A timer that is settled stays where it is when a transaction commits. -/
private theorem settled (h : db.Punctual) (hs : (k, s) ∈ db.sessions) {t : TimerRow} (ht : t ∈ db.rows.timers)
    (hsettled : t.status ≠ .pending) : t ∈ (s.view db.rows).timers := by
  have htimely := h.sessions _ hs
  refine htimely.mem_view.2 (.inr ⟨ht, fun u hu heq => ?_⟩)
  exact hsettled (htimely.versions u hu t ht heq.symm).1

private theorem commits (h : db.Punctual) (hs : (k, s) ∈ db.sessions) (hdone : s.prog = .done ()) :
    (⟨s.view db.rows, db.others k, (k, s) :: db.committed⟩ : Database).Punctual := by
  have htimely := h.sessions _ hs
  have hcommitted : ∀ id, s.task = .call (.fireTimer id) →
      s.pending = .none ∨ ∃ t ∈ s.pending.timers, t.id = id ∧ t.status = .fired := by
    intro id htask
    cases h.firing _ hs id htask with
    | due _ hdue => cases hdone.symm.trans hdue
    | missed hnone => exact .inl hnone
    | fired ht hid hfired => exact .inr ⟨_, ht, hid, hfired⟩
  constructor
  · exact htimely.view_nodup
  · intro o ho
    obtain ⟨ho, hne⟩ := Database.mem_others.1 ho
    refine ⟨htimely.view_nodup, (h.sessions o ho).held_nodup, fun t ht c hc hid => ?_⟩
    rcases htimely.mem_view.1 hc with hc | ⟨hc, -⟩
    · exact absurd hid.symm (h.apart o ho _ hs hne t ht c hc)
    · exact (h.sessions o ho).versions t ht c hc hid
  · exact fun o ho p hp => h.apart o (Database.mem_others.1 ho).1 p (Database.mem_others.1 hp).1
  · exact fun o ho => h.firing o (Database.mem_others.1 ho).1
  · refine List.forall_mem_cons.2 ⟨fun id htask => ?_, fun o ho id htask => ?_⟩
    · refine (hcommitted id htask).imp_right ?_
      rintro ⟨t, ht, hid, hfired⟩
      exact ⟨t, htimely.mem_view.2 (.inl ht), hid, hfired⟩
    · refine (h.fired o ho id htask).imp_right ?_
      rintro ⟨t, ht, hid, hfired⟩
      exact ⟨t, h.settled hs ht (by simp [hfired]), hid, hfired⟩
  · refine List.pairwise_cons.2 ⟨fun p hp id htask htask' => ?_, h.once⟩
    rcases hcommitted id htask with hnone | ⟨t, ht, rfl, -⟩
    · exact .inl hnone
    rcases h.fired p hp _ htask' with hnone | ⟨c, hc, hid, hfired⟩
    · exact .inr hnone
    · have hpending := (htimely.versions t ht c hc hid).1
      rw [hfired] at hpending
      cases hpending

theorem step (h : db.Punctual) {turn : Turn} (hstep : db.next svc turn = some db') (hkeys : db.TimerKeys turn) :
    db'.Punctual ∧ ∀ t ∈ db.rows.timers, t.status ≠ .pending → t ∈ db'.rows.timers := by
  cases turn with
  | begins =>
    obtain ⟨-, -, p, hp, rfl⟩ := Database.next_begins.1 hstep
    exact ⟨h.begins hp, fun _ ht _ => ht⟩
  | runs =>
    obtain ⟨s, s', hs, hadvance, hadmits, rfl⟩ := Database.next_runs.1 hstep
    have hfree : s.timerKeyFree db.rows = true := by simpa [TimerKeys, hs] using hkeys
    exact ⟨h.runs (Database.mem_of_session hs) hfree hadvance hadmits, fun _ ht _ => ht⟩
  | commits =>
    obtain ⟨s, u, hs, hdone, rfl⟩ := Database.next_commits.1 hstep
    have hs := Database.mem_of_session hs
    exact ⟨h.commits hs hdone, fun t ht hsettled => h.settled hs ht hsettled⟩
  | aborts =>
    obtain ⟨-, rfl⟩ := Database.next_aborts.1 hstep
    exact ⟨{ h with
      sessions := fun o ho => h.sessions o (Database.mem_others.1 ho).1
      apart := fun o ho p hp => h.apart o (Database.mem_others.1 ho).1 p (Database.mem_others.1 hp).1
      firing := fun o ho => h.firing o (Database.mem_others.1 ho).1 }, fun _ ht _ => ht⟩

end Database.Punctual

theorem punctual_of_reachable {db : Database} (h : (interleaving svc).ReachableIf Database.TimerKeys db) :
    db.Punctual := by
  refine h.invariant (P := Database.Punctual) ?_ fun _ _ _ _ hdb hstep hkeys => (hdb.step hstep hkeys).1
  rintro db ⟨hkeyed, hsessions, hcommitted⟩
  exact ⟨hkeyed.timers, by simp [hsessions], by simp [hsessions], by simp [hsessions], by simp [hcommitted],
    by simp [hcommitted]⟩

/-- In every interleaving, of two committed transactions that were to fire one timer, one wrote nothing, and if the
other wrote, the timer is fired. A timer that is fired or cancelled stays as it is. -/
theorem timer_fires_once {db : Database} (h : (interleaving svc).ReachableIf Database.TimerKeys db) :
    (db.committed.Pairwise fun o p => ∀ id, o.2.task = .call (.fireTimer id) →
      p.2.task = .call (.fireTimer id) → o.2.pending = .none ∨ p.2.pending = .none) ∧
    (∀ o ∈ db.committed, ∀ id, o.2.task = .call (.fireTimer id) →
      o.2.pending = .none ∨ ∃ t ∈ db.rows.timers, t.id = id ∧ t.status = .fired) ∧
    ∀ db', (interleaving svc).RunIf Database.TimerKeys db db' →
      ∀ t ∈ db.rows.timers, t.status ≠ .pending → t ∈ db'.rows.timers := by
  have hpunctual := punctual_of_reachable h
  refine ⟨hpunctual.once, hpunctual.fired, fun db' hrun t ht hsettled => ?_⟩
  induction hrun with
  | refl => exact ht
  | step hrun hstep hkeys ih =>
    exact ((punctual_of_reachable (hrun.reachableIf h)).step hstep hkeys).2 t ih hsettled

end

namespace Sample

/-- An approval whose reminder is due. -/
def overdue : InstanceRows := { underReview with timers := [⟨"t-1", "review-1", 1, .pending⟩] }

/-- Two pollers are handed the timer. The second finds it fired. -/
def twicePolled : List Turn :=
  .begins 0 (Supply.nth 1) 2 (.call (.fireTimer "t-1")) :: .begins 1 (Supply.nth 2) 2 (.call (.fireTimer "t-1")) ::
    List.replicate 7 (.runs 0 elsewhere) ++ [.commits 0, .runs 1 elsewhere, .commits 1]

end Sample

open Sample in
theorem timer_fires_once_polled : ∃ db, (interleaving (service "")).ReachableIf Database.TimerKeys db ∧
    db.committed.map Prod.fst = [1, 0] ∧ db.rows.events.length = 1 ∧
      db.committed.Pairwise fun o p => ∀ id, o.2.task = .call (.fireTimer id) →
        p.2.task = .call (.fireTimer id) → o.2.pending = .none ∨ p.2.pending = .none := by
  have hplay : (System.play (fun db : Database => db.next (service "")) Database.TimerKeys ⟨overdue, [], []⟩
      twicePolled).any (fun db => db.committed.map Prod.fst = [1, 0] ∧ db.rows.events.length = 1) = true := by decide +kernel
  obtain ⟨db, hrun, hend⟩ := (Option.any_eq_true _ _).1 hplay
  obtain ⟨hcommitted, hlength⟩ := of_decide_eq_true hend
  have hinit : (interleaving (service "")).ReachableIf Database.TimerKeys ⟨overdue, [], []⟩ :=
    .init ⟨⟨by decide, by decide, by decide⟩, rfl, rfl⟩
  have hreachable := hinit.play (fun _ _ _ h => h) hrun
  exact ⟨db, hreachable, hcommitted, hlength, (timer_fires_once hreachable).1⟩

end Fusions.Hetuflow
