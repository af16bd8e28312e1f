import Fusions.Hetuflow.Contract.Statuses
import Fusions.Hetuflow.Service.Queue

/-! The event log under any interleaving: numbered without gaps, and serial. Each transaction's events stand together,
in the order of the commits. -/
namespace Fusions.Hetuflow
open Fusions.Library Program

namespace Consecutive
variable {next : Int} {es fs : List EventRow}

theorem append (h : Consecutive next es) (hfs : Consecutive (next + es.length) fs) : Consecutive next (es ++ fs) := by
  induction es generalizing next with
  | nil => simpa using hfs
  | cons e es ih =>
    have hlength : next + (e :: es).length = next + 1 + es.length := by
      rw [List.length_cons]
      omega
    rw [hlength] at hfs
    exact ⟨h.1, ih h.2 hfs⟩

/-- The next number of a log numbered from 1. -/
theorem nextSeq_rows {rows : InstanceRows} (h : Consecutive 1 rows.events) :
    rows.nextSeq = 1 + rows.events.length := by
  unfold InstanceRows.nextSeq
  rw [foldl_max h]
  omega

/-- A log numbered from 1 is full. -/
theorem full {rows : InstanceRows} (h : Consecutive 1 rows.events) (n : Int) (hn : 1 ≤ n) (hlt : n < rows.nextSeq) :
    ∃ e ∈ rows.events, e.seq = n :=
  h.exists_of_lt hn (by rwa [h.nextSeq_rows] at hlt)

end Consecutive

/-- The events of the transactions that committed, in the order of the commits. -/
def Database.committedEvents (db : Database) : List EventRow :=
  (db.committed.reverse.map fun o => o.2.pending.events).flatten

section
variable {svc : WorkflowService} {db db' db₀ : Database} {start : InstanceRows}

@[simp] theorem Database.committedEvents_commit {rows : InstanceRows} {sessions : List (Nat × Session)}
    {o : Nat × Session} :
    (⟨rows, sessions, o :: db.committed⟩ : Database).committedEvents = db.committedEvents ++ o.2.pending.events := by
  simp [committedEvents]

/-- The log since `start`: the events of the committed transactions, one after the other, numbered from 1. -/
structure Database.Serial (start : InstanceRows) (db : Database) : Prop where
  queues : db.Queues 1
  numbered : Consecutive 1 db.rows.events
  commits : db.rows.events = start.events ++ db.committedEvents

namespace Database.Serial

/-- Where no transaction has begun. -/
theorem init (hlog : Consecutive 1 start.events) : (⟨start, [], []⟩ : Database).Serial start where
  queues := ⟨by rw [hlog.nextSeq_rows]; omega, hlog.full, by simp, by simp⟩
  numbered := hlog
  commits := (List.append_nil _).symm

/-- What an open transaction sees of the log. -/
theorem view (h : db.Serial start) {o : Nat × Session} (ho : o ∈ db.sessions) :
    Consecutive 1 (o.2.view db.rows).events := by
  refine h.numbered.append ?_
  rw [← h.numbered.nextSeq_rows]
  exact (h.queues.sessions o ho).consecutive

theorem step (h : db.Serial start) {turn : Turn} (hstep : db.next svc turn = some db') : db'.Serial start := by
  have hqueues := h.queues.step hstep
  cases turn with
  | begins =>
    obtain ⟨-, -, p, -, rfl⟩ := Database.next_begins.1 hstep
    exact ⟨hqueues, h.numbered, h.commits⟩
  | runs =>
    obtain ⟨s, s', -, -, -, rfl⟩ := Database.next_runs.1 hstep
    exact ⟨hqueues, h.numbered, h.commits⟩
  | commits k =>
    obtain ⟨s, u, hs, -, rfl⟩ := Database.next_commits.1 hstep
    refine ⟨hqueues, h.view (Database.mem_of_session hs), ?_⟩
    show db.rows.events ++ s.pending.events = _
    rw [h.commits, List.append_assoc, Database.committedEvents_commit]
  | aborts =>
    obtain ⟨-, rfl⟩ := Database.next_aborts.1 hstep
    exact ⟨hqueues, h.numbered, h.commits⟩

end Database.Serial

/-- In every interleaving over a log numbered 1, 2, and so on: the committed log is the old one followed by the events
of the committed transactions, each one's together and in the order of the commits, and stays numbered so. Every open
transaction sees a log numbered so, and at most one of them has appended to it. -/
theorem log_serial (hlog : Consecutive 1 start.events) (hrun : (interleaving svc).Run ⟨start, [], []⟩ db) :
    Consecutive 1 db.rows.events ∧ db.rows.events = start.events ++ db.committedEvents ∧
      (∀ o ∈ db.sessions, Consecutive 1 (o.2.view db.rows).events) ∧
      ∀ o ∈ db.sessions, ∀ p ∈ db.sessions, o.1 ≠ p.1 → o.2.pending.events = [] ∨ p.2.pending.events = [] := by
  have hserial : db.Serial start := by
    induction hrun with
    | refl => exact .init hlog
    | step _ hstep _ ih => exact ih.step hstep
  exact ⟨hserial.numbered, hserial.commits, fun _ => hserial.view, hserial.queues.alone⟩

end

namespace Sample

/-- An approval begins before a claim, and commits after it. -/
def claimedMeanwhile : List Turn :=
  .begins 0 (Supply.nth 1) 2 (reviewSignal .approved "review-1") ::
    .begins 1 (Supply.nth 2) 2 (reviewSignal .claimed "review-1") :: List.replicate 9 (.runs 1 elsewhere) ++
    .commits 1 :: List.replicate 17 (.runs 0 elsewhere) ++ [.commits 0]

end Sample

open Sample in
theorem log_serial_claimed : ∃ db, (Database.mk underReview [] []).play (service "") claimedMeanwhile = some db ∧
    db.committed.map Prod.fst = [0, 1] ∧ db.rows.events.length = 4 ∧ Consecutive 1 db.rows.events ∧
      db.rows.events = db.committedEvents := by
  have hplayed : (((Database.mk underReview [] []).play (service "") claimedMeanwhile).map fun db =>
      (db.committed.map Prod.fst, db.rows.events.length)) = some ([0, 1], 4) := by decide +kernel
  obtain ⟨db, hdb, hend⟩ := Option.map_eq_some_iff.1 hplayed
  obtain ⟨hcommitted, hlength⟩ := Prod.mk.injEq .. ▸ hend
  have hrun : (interleaving (service "")).Run ⟨underReview, [], []⟩ db := Database.run_of_play hdb
  have hlog : Consecutive 1 underReview.events := trivial
  obtain ⟨hnumbered, hcommits, -⟩ := log_serial hlog hrun
  exact ⟨db, hdb, hcommitted, hlength, hnumbered, hcommits⟩

end Fusions.Hetuflow
