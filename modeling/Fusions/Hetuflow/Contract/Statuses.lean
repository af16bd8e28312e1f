import Fusions.Hetuflow.Service.Interleaving
import Fusions.Hetuflow.Service.Script
import Fusions.Hetuflow.Service.Statements

/-! Under any interleaving of transactions, the instance row moves along the declared state machine. -/
namespace Fusions.Hetuflow
open Fusions.Library Program

/-- The declared state machine, on versions of an instance row. Columns beside the status are free. -/
def declared : System WorkflowInstance Unit where
  init i := i.status = .active
  step i _ i' := i'.status = i.status ∨ i.Transitions i'

section
variable {svc : WorkflowService} {db db' : Database} {s s' : Session} {rows : InstanceRows}

/-- One step of a transaction takes its version of the row one step along the machine. -/
theorem Session.advance_declared {e : Elsewhere} (h : s.advance rows e = some s') :
    declared.step (s.view rows).inst () (s'.view rows).inst := by
  unfold advance at h
  split at h
  · cases h
    exact .inl rfl
  · next q next hprog =>
    split at h
    · next b tx hexec =>
      cases h
      show declared.step _ () ((s.pending.after q rows (s.pending.above rows) tx.rows).above rows).inst
      rw [Pending.after_above_inst]
      split
      · exact (nextVersion_of_exec q hexec).status
      · exact .inl rfl
    · cases h
  · cases h

/-- The version of the row that an open transaction holds lies further along the machine than the
committed one, and no other transaction holds one. -/
structure Database.Ahead (db : Database) : Prop where
  version : ∀ o ∈ db.sessions, declared.Run db.rows.inst (o.2.view db.rows).inst
  single : ∀ o ∈ db.sessions, ∀ p ∈ db.sessions, o.1 ≠ p.1 → o.2.pending.inst = none ∨ p.2.pending.inst = none

namespace Database.Ahead

private theorem begins (h : db.Ahead) {k : Nat} {s : Session} (hs : s.pending = .none) :
    { db with sessions := (k, s) :: db.sessions : Database }.Ahead where
  version := by
    refine List.forall_mem_cons.2 ⟨?_, h.version⟩
    show declared.Run db.rows.inst (s.pending.inst.getD db.rows.inst)
    rw [hs]
    exact .refl
  single := by
    intro o ho p hp hne
    rcases List.mem_cons.1 ho with rfl | ho
    · exact .inl (by rw [hs]; rfl)
    rcases List.mem_cons.1 hp with rfl | hp
    · exact .inr (by rw [hs]; rfl)
    exact h.single o ho p hp hne

private theorem runs (h : db.Ahead) {k : Nat} {e : Elsewhere} (hs : (k, s) ∈ db.sessions)
    (hstep : s.advance db.rows e = some s') (hadmits : db.admits k s'.pending = true) :
    { db with sessions := (k, s') :: db.others k : Database }.Ahead where
  version := by
    refine List.forall_mem_cons.2 ⟨?_, fun o ho => h.version o (Database.mem_others.1 ho).1⟩
    exact (h.version _ hs).step (Session.advance_declared hstep) trivial
  single := by
    have hfree : ∀ o ∈ db.others k, s'.pending.inst = none ∨ o.2.pending.inst = none := by
      intro o ho
      have hcompatible := List.all_eq_true.1 (Bool.and_eq_true_iff.1 hadmits).1 o ho
      simp only [Pending.compatible, Bool.and_eq_true, Bool.or_eq_true, Option.isNone_iff_eq_none] at hcompatible
      exact hcompatible.1.1.1.1
    intro o ho p hp hne
    rcases List.mem_cons.1 ho with rfl | ho
    · rcases List.mem_cons.1 hp with rfl | hp
      · exact absurd rfl hne
      · exact hfree p hp
    · rcases List.mem_cons.1 hp with rfl | hp
      · exact (hfree o ho).symm
      · exact h.single o (Database.mem_others.1 ho).1 p (Database.mem_others.1 hp).1 hne

private theorem commits (h : db.Ahead) {k : Nat} (hs : (k, s) ∈ db.sessions) :
    (⟨s.view db.rows, db.others k, (k, s) :: db.committed⟩ : Database).Ahead where
  version := by
    intro o ho
    obtain ⟨ho, hne⟩ := Database.mem_others.1 ho
    show declared.Run (s.view db.rows).inst (o.2.pending.inst.getD (s.view db.rows).inst)
    rcases h.single o ho _ hs hne with hnone | hnone
    · rw [hnone]
      exact .refl
    · have hsame : (s.view db.rows).inst = db.rows.inst := by
        show s.pending.inst.getD db.rows.inst = db.rows.inst
        rw [hnone]
        rfl
      rw [hsame]
      exact h.version o ho
  single := fun o ho p hp => h.single o (Database.mem_others.1 ho).1 p (Database.mem_others.1 hp).1

private theorem aborts (h : db.Ahead) (k : Nat) : { db with sessions := db.others k : Database }.Ahead where
  version := fun o ho => h.version o (Database.mem_others.1 ho).1
  single := fun o ho p hp => h.single o (Database.mem_others.1 ho).1 p (Database.mem_others.1 hp).1

/-- A step of the database keeps the open versions ahead, and moves the committed row along the machine. -/
theorem step (h : db.Ahead) {a : Turn} (hstep : db.next svc a = some db') :
    db'.Ahead ∧ declared.Run db.rows.inst db'.rows.inst := by
  cases a with
  | begins k supply fuel task =>
    obtain ⟨-, -, p, -, rfl⟩ := Database.next_begins.1 hstep
    exact ⟨h.begins rfl, .refl⟩
  | runs k e =>
    obtain ⟨s, s', hs, hadvance, hadmits, rfl⟩ := Database.next_runs.1 hstep
    exact ⟨h.runs (Database.mem_of_session hs) hadvance hadmits, .refl⟩
  | commits k =>
    obtain ⟨s, u, hs, -, rfl⟩ := Database.next_commits.1 hstep
    exact ⟨h.commits (Database.mem_of_session hs), h.version _ (Database.mem_of_session hs)⟩
  | aborts k =>
    obtain ⟨-, rfl⟩ := Database.next_aborts.1 hstep
    exact ⟨h.aborts k, .refl⟩

end Database.Ahead

theorem ahead_of_reachable (h : (interleaving svc).Reachable db) : db.Ahead := by
  refine h.invariant (P := Database.Ahead) ?_ fun db a db' _ hdb hstep _ => (hdb.step hstep).1
  rintro db ⟨-, hsessions, -⟩
  exact ⟨by simp [hsessions], by simp [hsessions]⟩

/-- In every interleaving, each statement changes the status of the row version it writes as declared,
and the committed row only ever moves along the declared state machine. -/
theorem statuses_refine {db₀ : Database} (hinit : (interleaving svc).init db₀) (hrun : (interleaving svc).Run db₀ db) :
    declared.Run db₀.rows.inst db.rows.inst ∧
      ∀ k e s db', db.session k = some s → db.next svc (.runs k e) = some db' → ∃ s', db'.session k = some s' ∧
        ((s'.view db'.rows).inst.status = (s.view db.rows).inst.status ∨
          (s.view db.rows).inst.Transitions (s'.view db'.rows).inst) := by
  constructor
  · have hstart : (interleaving svc).Reachable db₀ := .init hinit
    refine hrun.invariant (P := fun db => declared.Run db₀.rows.inst db.rows.inst) hstart .refl ?_
    intro t a t' ht hP hstep _
    exact hP.trans ((ahead_of_reachable ht).step hstep).2
  · intro k e s db' hs hnext
    obtain ⟨t, s', ht, hadvance, -, rfl⟩ := Database.next_runs.1 hnext
    obtain rfl : t = s := Option.some.inj (ht.symm.trans hs)
    exact ⟨s', by simp [Database.session], Session.advance_declared hadvance⟩

end

namespace Sample

def elsewhere : Elsewhere := ⟨fun _ => none, false⟩

/-- An instance with one active approval, whose approval ends it. -/
def underReview : InstanceRows :=
  { insertedRows (Supply.nth 0) ⟨1, "00000000-0000-4000-8000-00000000f001", "00000000-0000-4000-8000-00000000d001",
      definition [approval "review"] [approved "review" "end"], "REF-1", "order", "42", none, none⟩ with
    activities := [ActivityRow.new "review-1" 1 "review" .approval none 1] }

/-- A signal of user 7 to an activity of the instance under review. -/
def reviewSignal (signal : SignalType) (activity : Uuid) : Task :=
  .call (.signal ⟨⟨1, .allInTenant⟩, underReview.inst.id, signal, some activity, signalStr signal ++ activity, 7,
    none, none, none, none⟩)

end Sample

open Sample in
theorem statuses_refine_approved :
    ∃ db, (Database.mk underReview [] []).play (service "")
        (.begins 0 (Supply.nth 1) 2 (reviewSignal .approved "review-1") :: List.replicate 17 (.runs 0 elsewhere) ++
          [.commits 0]) = some db ∧
      db.rows.inst.status = .completed ∧ declared.Run underReview.inst db.rows.inst := by
  have hstatus : (((Database.mk underReview [] []).play (service "")
      (.begins 0 (Supply.nth 1) 2 (reviewSignal .approved "review-1") :: List.replicate 17 (.runs 0 elsewhere) ++
        [.commits 0])).map fun db => db.rows.inst.status) = some .completed := by decide +kernel
  obtain ⟨db, hdb, hcompleted⟩ := Option.map_eq_some_iff.1 hstatus
  have hinit : (interleaving (service "")).init ⟨underReview, [], []⟩ :=
    ⟨⟨by decide, by decide, by decide⟩, rfl, rfl⟩
  exact ⟨db, hdb, hcompleted, (statuses_refine hinit (Database.run_of_play hdb)).1⟩

end Fusions.Hetuflow
