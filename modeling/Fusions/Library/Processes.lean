import Mathlib.Data.List.Nodup
import Mathlib.Logic.Function.Basic

/-! Processes that read and write the cells of a shared store one at a time. A process whose cells no one else
writes comes to what it comes to alone, however its steps are interleaved with others. -/
namespace Fusions.Library
universe u v w

variable {K : Type u} {V : Type v} {R : Type w}

inductive Process (K : Type u) (V : Type v) (R : Type w) where
  | done (result : R)
  | read (cell : K) (next : V → Process K V R)
  | write (cell : K) (value : V) (next : Process K V R)

namespace Process
variable [DecidableEq K]

/-- The run of a process on its own: its result and the store. -/
def run : Process K V R → (K → V) → R × (K → V)
  | done result, store => (result, store)
  | read cell next, store => (next (store cell)).run store
  | write cell value next, store => next.run (Function.update store cell value)

/-- The cells that the run reads and writes. -/
def cells : Process K V R → (K → V) → List K
  | done _, _ => []
  | read cell next, store => cell :: (next (store cell)).cells store
  | write cell value next, store => cell :: next.cells (Function.update store cell value)

/-- One step, unless the process is done. -/
def step : Process K V R → (K → V) → Option (Process K V R × (K → V))
  | done _, _ => none
  | read cell next, store => some (next (store cell), store)
  | write cell value next, store => some (next, Function.update store cell value)

variable {p p' : Process K V R} {store store' : K → V}

theorem run_frame {cell : K} (h : cell ∉ p.cells store) : (p.run store).2 cell = store cell := by
  induction p generalizing store with
  | done result => rfl
  | read k next ih => exact ih (store k) fun hmem => h (List.mem_cons_of_mem k hmem)
  | write k value next ih =>
    have hne : cell ≠ k := fun heq => h (heq ▸ List.mem_cons_self)
    rw [run, ih fun hmem => h (List.mem_cons_of_mem k hmem), Function.update_of_ne hne]

/-- The run depends on its own cells only. -/
theorem run_congr (h : ∀ cell ∈ p.cells store, store' cell = store cell) :
    p.cells store' = p.cells store ∧ (p.run store').1 = (p.run store).1 ∧
      ∀ cell ∈ p.cells store, (p.run store').2 cell = (p.run store).2 cell := by
  induction p generalizing store store' with
  | done result => exact ⟨rfl, rfl, h⟩
  | read k next ih =>
    obtain ⟨hk, hrest⟩ := List.forall_mem_cons.1 h
    obtain ⟨hcells, hresult, hfinal⟩ := ih (store k) hrest
    simp only [run, cells, hk, hcells, true_and]
    refine ⟨hresult, List.forall_mem_cons.2 ⟨?_, hfinal⟩⟩
    by_cases hmem : k ∈ (next (store k)).cells store
    · exact hfinal k hmem
    · rw [run_frame (hcells ▸ hmem), run_frame hmem, hk]
  | write k value next ih =>
    have hrest : ∀ cell ∈ next.cells (Function.update store k value),
        Function.update store' k value cell = Function.update store k value cell := by
      intro cell hcell
      by_cases heq : cell = k
      · simp [heq]
      · simpa [Function.update_of_ne heq] using h cell (List.mem_cons_of_mem k hcell)
    obtain ⟨hcells, hresult, hfinal⟩ := ih hrest
    simp only [run, cells, hcells, true_and]
    refine ⟨hresult, List.forall_mem_cons.2 ⟨?_, hfinal⟩⟩
    by_cases hmem : k ∈ next.cells (Function.update store k value)
    · exact hfinal k hmem
    · rw [run_frame (hcells ▸ hmem), run_frame hmem, Function.update_self, Function.update_self]

theorem step_run (h : p.step store = some (p', store')) : p'.run store' = p.run store := by
  cases p with
  | done result => cases h
  | read k next | write k value next =>
    cases h
    rfl

/-- A step stays within the cells of the run. -/
theorem step_cells (h : p.step store = some (p', store')) :
    p'.cells store' ⊆ p.cells store ∧ ∀ cell, cell ∉ p.cells store → store' cell = store cell := by
  cases p with
  | done result => cases h
  | read k next =>
    cases h
    exact ⟨List.subset_cons_self k _, fun _ _ => rfl⟩
  | write k value next =>
    cases h
    refine ⟨List.subset_cons_self k _, fun cell hcell => Function.update_of_ne (fun heq => hcell ?_) value store⟩
    exact heq ▸ List.mem_cons_self

/-- A process under way on a store, with what it and its cells come to. -/
structure OnTrack (p : Process K V R) (store : K → V) (own : List K) (end' : R × (K → V)) : Prop where
  cells : p.cells store ⊆ own
  result : (p.run store).1 = end'.1
  final : ∀ cell ∈ own, (p.run store).2 cell = end'.2 cell

variable {own : List K} {end' : R × (K → V)}

theorem OnTrack.start (p : Process K V R) (store : K → V) : p.OnTrack store (p.cells store) (p.run store) :=
  ⟨List.Subset.refl _, rfl, fun _ _ => rfl⟩

theorem OnTrack.step (h : p.OnTrack store own end') (hstep : p.step store = some (p', store')) :
    p'.OnTrack store' own end' := by
  refine ⟨List.Subset.trans (step_cells hstep).1 h.cells, ?_, ?_⟩
  · rw [step_run hstep]
    exact h.result
  · rw [step_run hstep]
    exact h.final

/-- Others may change any other cell. -/
theorem OnTrack.frame (h : p.OnTrack store own end') (hframe : ∀ cell ∈ own, store' cell = store cell) :
    p.OnTrack store' own end' := by
  obtain ⟨hcells, hresult, hfinal⟩ := run_congr fun cell hcell => hframe cell (h.cells hcell)
  refine ⟨hcells ▸ h.cells, hresult.trans h.result, fun cell hcell => ?_⟩
  by_cases hmem : cell ∈ p.cells store
  · exact (hfinal cell hmem).trans (h.final cell hcell)
  · rw [run_frame (hcells ▸ hmem), hframe cell hcell, ← run_frame hmem]
    exact h.final cell hcell

/-- Nothing is left to do but to hand over the result. -/
theorem OnTrack.of_done {result : R} (h : (done result : Process K V R).OnTrack store own end') :
    result = end'.1 ∧ ∀ cell ∈ own, store cell = end'.2 cell :=
  ⟨h.result, h.final⟩

end Process

variable [DecidableEq K]

/-- Writes to a store, one after the other. -/
def assign (store : K → V) (writes : List (K × V)) : K → V :=
  writes.foldl (fun store write => Function.update store write.1 write.2) store

variable {store : K → V} {writes writes' : List (K × V)} {cell : K}

@[simp] theorem assign_nil (store : K → V) : assign store [] = store := rfl

theorem assign_append (store : K → V) (writes writes' : List (K × V)) :
    assign store (writes ++ writes') = assign (assign store writes) writes' :=
  List.foldl_append

/-- Each cell depends on its own value only. -/
theorem assign_congr {store' : K → V} (h : store' cell = store cell) :
    assign store' writes cell = assign store writes cell := by
  induction writes generalizing store store' with
  | nil => exact h
  | cons write writes ih =>
    apply ih
    by_cases heq : cell = write.1
    · simp [heq]
    · simpa [Function.update_of_ne heq] using h

theorem assign_of_not_mem (h : cell ∉ writes.map Prod.fst) : assign store writes cell = store cell := by
  induction writes generalizing store with
  | nil => rfl
  | cons write writes ih =>
    obtain ⟨hne, hrest⟩ := not_or.1 (List.mem_cons.not.1 h)
    rw [assign, List.foldl_cons]
    exact (ih hrest).trans (Function.update_of_ne hne _ _)

/-- A cell that is written once has what was written. -/
theorem assign_of_mem {value : V} (hnodup : (writes.map Prod.fst).Nodup) (h : (cell, value) ∈ writes) :
    assign store writes cell = value := by
  induction writes generalizing store with
  | nil => cases h
  | cons write writes ih =>
    obtain ⟨hnew, hrest⟩ := List.nodup_cons.1 hnodup
    rw [assign, List.foldl_cons]
    rcases List.mem_cons.1 h with rfl | h
    · exact (assign_of_not_mem hnew).trans (Function.update_self ..)
    · exact ih hrest h

/-- The order of writes to different cells does not matter. -/
theorem assign_perm (hnodup : (writes.map Prod.fst).Nodup) (h : writes.Perm writes') :
    assign store writes = assign store writes' := by
  funext cell
  have hkeys := h.map Prod.fst
  by_cases hmem : cell ∈ writes.map Prod.fst
  · obtain ⟨⟨k, value⟩, hwrite, rfl⟩ := List.mem_map.1 hmem
    rw [assign_of_mem hnodup hwrite, assign_of_mem (hkeys.nodup_iff.1 hnodup) (h.mem_iff.1 hwrite)]
  · rw [assign_of_not_mem hmem, assign_of_not_mem (hkeys.mem_iff.not.1 hmem)]

end Fusions.Library
