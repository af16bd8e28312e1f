import Fusions.Library.Versions
import Fusions.Hetuflow.Service.Engine

/-! Transactions on one instance, interleaved statement by statement at READ COMMITTED: a statement sees
the committed rows and the transaction's own writes, and waits for the writers of the rows it writes. -/
namespace Fusions.Hetuflow
open Fusions.Library Program

/-- The rows a transaction has written or locked. -/
structure Pending where
  inst : Option WorkflowInstance
  activities : List ActivityRow
  events : List EventRow
  timers : List TimerRow
  outbox : List OutboxRow

namespace Pending

def none : Pending := ⟨.none, [], [], [], []⟩

/-- The rows as the transaction sees them. -/
def above (p : Pending) (rows : InstanceRows) : InstanceRows where
  inst := p.inst.getD rows.inst
  snapshot := rows.snapshot
  activities := overlay (·.id) p.activities rows.activities
  events := rows.events ++ p.events
  timers := overlay (·.id) p.timers rows.timers
  outbox := rows.outbox ++ p.outbox

/-- The unique index of the outbox. -/
def outboxKey (o : OutboxRow) : Uuid × String := (o.activityInstanceId, o.activityType)

/-- No row is written by both. -/
def compatible (p q : Pending) : Bool :=
  (p.inst.isNone || q.inst.isNone) && Apart (·.id) p.activities q.activities &&
    Apart EventRow.seq p.events q.events && Apart (·.id) p.timers q.timers && Apart outboxKey p.outbox q.outbox

end Pending

namespace Stmt

/-- Does the statement write or lock the instance row? -/
def writesInstance {β : Type} : Stmt β → WorkflowInstance → Bool
  | .loadInstanceForUpdateScoped scope, i => scope.sees i
  | .completeWorkflowCas _, i | .errorWorkflow, i | .updateCurrentActivity _, i | .enterReturnedWaiting _, i =>
    i.status == .active
  | .reactivateWorkflow, i => i.status == .completed && i.result == some .returned
  | .resumeFromReturnedWaiting, i => i.status == .returnedWaiting
  | .clearCurrentActivity, _ | .mergeInstanceContext _, _ => true
  | .markSideEffectsExecuted, i => !i.sideEffectsExecuted
  | _, _ => false

/-- Does the statement update this activity row? -/
def writesActivity {β : Type} : Stmt β → ActivityRow → Bool
  | .completeActivityCas id .., a | .skipActivityForTimeout id, a | .updateActivityAssigneeRole id _, a
  | .updateActivityAssignee id _, a => a.isActive id
  | .skipOtherActiveActivities exclude, a => a.isOtherActive exclude
  | _, _ => false

/-- Does the statement update this timer row? -/
def writesTimer {β : Type} (r : InstanceRows) : Stmt β → TimerRow → Bool
  | .cancelTimersOfOthers exclude, t =>
    t.status == .pending && r.activities.any fun a => a.isOtherActive exclude && a.id == t.activityInstanceId
  | .cancelTimersForActivity id, t => t.status == .pending && t.activityInstanceId == id
  | .markTimerFired id, t => t.status == .pending && t.id == id
  | _, _ => false

end Stmt

/-- The rows held after a statement that saw `view` and left `left`: those held before, those it
updated, and those it inserted. -/
def Pending.after {β : Type} (p : Pending) (q : Stmt β) (rows view left : InstanceRows) : Pending where
  inst := if q.writesInstance view.inst then some left.inst else p.inst
  activities := left.activities.filter fun a =>
    p.activities.any (·.id == a.id) || !rows.activities.any (·.id == a.id) ||
      view.activities.any fun b => b.id == a.id && q.writesActivity b
  events := left.events.drop rows.events.length
  timers := left.timers.filter fun t =>
    p.timers.any (·.id == t.id) || !rows.timers.any (·.id == t.id) ||
      view.timers.any fun b => b.id == t.id && q.writesTimer view b
  outbox := left.outbox.drop rows.outbox.length

@[simp] theorem Pending.above_inst (p : Pending) (rows : InstanceRows) :
    (p.above rows).inst = p.inst.getD rows.inst := rfl

theorem Pending.after_above_inst {β : Type} (p : Pending) (q : Stmt β) (rows left : InstanceRows) :
    ((p.after q rows (p.above rows) left).above rows).inst =
      if q.writesInstance (p.above rows).inst = true then left.inst else (p.above rows).inst := by
  unfold Pending.after
  rw [above_inst]
  dsimp only
  split <;> rfl

/-- What a transaction runs: a call, the statements of a start after its insert, or a verification. -/
inductive Task where
  | call (call : Call)
  | start (cmd : StartCommand) (entryId : String) (entryRole : Option String)
  | verify (scope : ScopeFilter)

/-- The program of a task. A timer call has read its timer's record, a delivery call its activity's id. -/
def Task.program (svc : WorkflowService) (fuel : Nat) (rows : InstanceRows) : Task → Option (Prog Unit)
  | .call (.signal cmd) => if cmd.instanceId = rows.inst.id then some (svc.signal fuel cmd).forget else none
  | .call (.resubmit scope key) => some (svc.resubmit scope rows.inst.id key).forget
  | .call (.fireTimer id) =>
    (rows.timers.find? (·.id == id)).map fun t => (svc.fireTimer fuel (t.intoRecord rows.inst.id)).forget
  | .call (.onNotificationDelivered id) =>
    if rows.activities.any (·.id == id) then some (svc.onNotificationDelivered fuel id) else none
  | .call .onBusinessCallbackDelivered => some WorkflowService.onBusinessCallbackDelivered
  | .call (.onOutboxDeadLetter id activityType lastError) =>
    some (WorkflowService.onOutboxDeadLetter id activityType lastError)
  | .start cmd entryId entryRole => some (svc.startInserted cmd rows.inst entryId entryRole).forget
  | .verify scope => some (WorkflowService.verifyProjection scope rows.inst.id).forget

/-- An open transaction: what is left of its program, the uuids it drew, the rows it holds, and the
source activities of the outcomes it has applied. -/
structure Session where
  task : Task
  supply : Supply
  prog : Prog Unit
  drawn : Nat
  pending : Pending
  applied : List Uuid

/-- What a statement meets of other instances. -/
structure Elsewhere where
  foreignActivity : Uuid → Option ActivityInstance
  openElsewhere : Bool

def Supply.envWith (supply : Supply) (e : Elsewhere) : Env where
  now := supply.now
  uuid := supply.uuid
  uuid_ne_nil := supply.uuid_ne_nil
  foreignActivity := e.foreignActivity
  openElsewhere := e.openElsewhere

namespace Session

def view (s : Session) (rows : InstanceRows) : InstanceRows := s.pending.above rows

/-- One step of the program. A statement that fails ends the transaction instead. -/
def advance (s : Session) (rows : InstanceRows) (e : Elsewhere) : Option Session :=
  match s.prog with
  | .mark m p => some { s with prog := p, applied := m :: s.applied }
  | .exec q next =>
    match exec (s.supply.envWith e) q ⟨s.view rows, s.drawn⟩ with
    | .ok (b, tx) => some { s with
        prog := next b
        drawn := tx.drawn
        pending := s.pending.after q rows (s.view rows) tx.rows }
    | .error _ => none
  | _ => none

end Session

/-- The committed rows of an instance, the open transactions on it, and those that committed. -/
structure Database where
  rows : InstanceRows
  sessions : List (Nat × Session)
  committed : List (Nat × Session)

inductive Turn where
  | begins (k : Nat) (supply : Supply) (fuel : Nat) (task : Task)
  | runs (k : Nat) (e : Elsewhere)
  | commits (k : Nat)
  | aborts (k : Nat)

namespace Database
variable (db : Database)

def session (k : Nat) : Option Session := (db.sessions.find? (·.1 == k)).map Prod.snd

def others (k : Nat) : List (Nat × Session) := db.sessions.filter (·.1 != k)

/-- A statement waits while another transaction holds a row it writes, and no `seq` is taken twice. -/
def admits (k : Nat) (p : Pending) : Bool :=
  (db.others k).all (fun o => p.compatible o.2.pending) && Apart EventRow.seq p.events db.rows.events

/-- The next state, if the action is possible. A transaction may be aborted at any point. -/
def next (svc : WorkflowService) : Turn → Option Database
  | .begins k supply fuel task =>
    if (db.session k).isSome || db.committed.any (·.1 == k) then none
    else (task.program svc fuel db.rows).map fun p =>
      { db with sessions := (k, ⟨task, supply, p, 0, .none, []⟩) :: db.sessions }
  | .runs k e => do
    let s ← db.session k
    let s' ← s.advance db.rows e
    if db.admits k s'.pending then some { db with sessions := (k, s') :: db.others k } else none
  | .commits k => do
    let s ← db.session k
    match s.prog with
    | .done _ => some ⟨s.view db.rows, db.others k, (k, s) :: db.committed⟩
    | _ => none
  | .aborts k => if (db.session k).isSome then some { db with sessions := db.others k } else none

variable {db} {svc : WorkflowService} {db' : Database} {k : Nat} {s : Session}

theorem mem_of_session (h : db.session k = some s) : (k, s) ∈ db.sessions := by
  obtain ⟨o, ho, rfl⟩ := Option.map_eq_some_iff.1 h
  have hk : o.1 = k := by simpa using List.find?_some ho
  rw [← hk]
  exact List.mem_of_find?_eq_some ho

theorem mem_others {o : Nat × Session} : o ∈ db.others k ↔ o ∈ db.sessions ∧ o.1 ≠ k := by
  simp [others]

theorem next_begins {supply : Supply} {fuel : Nat} {task : Task} :
    db.next svc (.begins k supply fuel task) = some db' ↔
      db.session k = none ∧ (∀ o ∈ db.committed, o.1 ≠ k) ∧ ∃ p, task.program svc fuel db.rows = some p ∧
        db' = { db with sessions := (k, ⟨task, supply, p, 0, .none, []⟩) :: db.sessions } := by
  simp only [next]
  split
  · next h =>
    refine ⟨nofun, fun ⟨hk, hc, _⟩ => ?_⟩
    rcases Bool.or_eq_true_iff.1 h with h | h
    · simp [hk] at h
    · obtain ⟨o, ho, hok⟩ := List.any_eq_true.1 h
      exact absurd (by simpa using hok) (hc o ho)
  · next h =>
    simp only [Bool.or_eq_true, not_or, Bool.not_eq_true, Option.isSome_eq_false_iff, Option.isNone_iff_eq_none,
      List.any_eq_false] at h
    rw [Option.map_eq_some_iff]
    constructor
    · rintro ⟨p, hp, rfl⟩
      exact ⟨h.1, by simpa using h.2, p, hp, rfl⟩
    · rintro ⟨-, -, p, hp, rfl⟩
      exact ⟨p, hp, rfl⟩

theorem next_runs {e : Elsewhere} :
    db.next svc (.runs k e) = some db' ↔
      ∃ s s', db.session k = some s ∧ s.advance db.rows e = some s' ∧ db.admits k s'.pending = true ∧
        db' = { db with sessions := (k, s') :: db.others k } := by
  simp only [next, Option.bind_eq_bind, Option.bind_eq_some_iff]
  constructor
  · rintro ⟨s, hs, s', hs', h⟩
    split at h
    · next hadmits => exact ⟨s, s', hs, hs', hadmits, (Option.some.inj h).symm⟩
    · cases h
  · rintro ⟨s, s', hs, hs', hadmits, rfl⟩
    exact ⟨s, hs, s', hs', if_pos hadmits⟩

theorem next_commits :
    db.next svc (.commits k) = some db' ↔
      ∃ s u, db.session k = some s ∧ s.prog = .done u ∧
        db' = ⟨s.view db.rows, db.others k, (k, s) :: db.committed⟩ := by
  simp only [next, Option.bind_eq_bind, Option.bind_eq_some_iff]
  constructor
  · rintro ⟨s, hs, h⟩
    split at h
    · next u hu => exact ⟨s, u, hs, hu, (Option.some.inj h).symm⟩
    · cases h
  · rintro ⟨s, u, hs, hu, rfl⟩
    exact ⟨s, hs, by rw [hu]⟩

theorem next_aborts :
    db.next svc (.aborts k) = some db' ↔ (db.session k).isSome = true ∧ db' = { db with sessions := db.others k } := by
  simp only [next]
  split
  · next h => exact ⟨fun h' => ⟨h, (Option.some.inj h').symm⟩, fun h' => congrArg some h'.2.symm⟩
  · next h => exact ⟨nofun, fun h' => absurd h'.1 h⟩

end Database

/-- The keys of the committed rows are unique. -/
structure InstanceRows.Keyed (r : InstanceRows) : Prop where
  activities : (r.activities.map ActivityRow.id).Nodup
  events : (r.events.map EventRow.seq).Nodup
  timers : (r.timers.map TimerRow.id).Nodup

/-- The interleavings of transactions on the rows of one instance. -/
def interleaving (svc : WorkflowService) : System Database Turn where
  init db := db.rows.Keyed ∧ db.sessions = [] ∧ db.committed = []
  step db a db' := db.next svc a = some db'

/-- The next state with or without the unique index on `(workflow_instance_id, seq)`: without it a number
that is taken stops nobody. -/
def Database.nextUnder (svc : WorkflowService) (unique : Bool) (db : Database) : Turn → Option Database
  | .runs k e => do
    let s ← db.session k
    let s' ← s.advance db.rows e
    let held := if unique then s'.pending else { s'.pending with events := [] }
    if db.admits k held then some { db with sessions := (k, s') :: db.others k } else none
  | turn => db.next svc turn

/-- The index makes the difference. -/
theorem Database.nextUnder_true (svc : WorkflowService) (db : Database) (turn : Turn) :
    db.nextUnder svc true turn = db.next svc turn := by
  cases turn <;> rfl

/-- The interleavings under READ COMMITTED, with or without the unique index. -/
def readCommitted (svc : WorkflowService) (unique : Bool) : System Database Turn where
  init db := db.rows.Keyed ∧ db.sessions = [] ∧ db.committed = []
  step db turn db' := db.nextUnder svc unique turn = some db'

/-- Play actions one after the other, as long as each is possible. -/
def Database.play (svc : WorkflowService) : Database → List Turn → Option Database
  | db, [] => some db
  | db, a :: as => (db.next svc a).bind fun db' => db'.play svc as

theorem Database.run_of_play {svc : WorkflowService} {db db' : Database} {as : List Turn}
    (h : db.play svc as = some db') : (interleaving svc).Run db db' := by
  suffices hrun : ∀ {start : Database}, (interleaving svc).Run start db → (interleaving svc).Run start db' from
    hrun .refl
  intro start hs
  induction as generalizing db with
  | nil =>
    cases h
    exact hs
  | cons a as ih =>
    obtain ⟨db₁, hnext, h⟩ := Option.bind_eq_some_iff.1 h
    exact ih h (hs.step hnext trivial)

end Fusions.Hetuflow
