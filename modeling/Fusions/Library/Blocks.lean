import Mathlib.Init

/-! Logs written in blocks: lists that are concatenations of blocks of a given kind. -/
namespace Fusions.Library

/-- A log that was written block by block, each block of the kind `P`. -/
inductive Blocks {α : Type} (P : List α → Prop) : List α → Prop where
  | nil : Blocks P []
  | block {log block : List α} : Blocks P log → P block → Blocks P (log ++ block)

namespace Blocks
variable {α : Type} {P : List α → Prop}

theorem single {block : List α} (h : P block) : Blocks P block := by
  simpa using nil.block h

theorem append {log new : List α} (h : Blocks P log) (k : Blocks P new) : Blocks P (log ++ new) := by
  induction k with
  | nil => simpa using h
  | block _ hblock ih =>
    rw [← List.append_assoc]
    exact ih.block hblock

/-- Every entry stands in a block: the log splits around the block, and the block around the entry. -/
theorem split {pre post : List α} {x : α} (h : Blocks P (pre ++ x :: post)) :
    ∃ log u v new, P (u ++ x :: v) ∧ Blocks P log ∧ Blocks P new ∧ pre = log ++ u ∧ post = v ++ new := by
  generalize heq : pre ++ x :: post = l at h
  induction h generalizing post with
  | nil => exact absurd heq (by simp)
  | @block log block hlog hblock ih =>
    rcases List.append_eq_append_iff.1 heq with ⟨v, hlogv, hxv⟩ | ⟨u, rfl, hblk⟩
    · cases v with
      | nil =>
        rw [List.nil_append] at hxv
        exact ⟨log, [], post, [], by rw [List.nil_append, hxv]; exact hblock, hlog, .nil, by simpa using hlogv.symm,
          by simp⟩
      | cons y v =>
        obtain ⟨rfl, rfl⟩ := List.cons.inj hxv
        obtain ⟨log', u, w, new, hP, hlog', hnew, rfl, rfl⟩ := ih hlogv.symm
        exact ⟨log', u, w, new ++ block, hP, hlog', hnew.block hblock, rfl, by simp⟩
    · exact ⟨log, u, post, [], by rw [← hblk]; exact hblock, hlog, .nil, rfl, by simp⟩

end Blocks
end Fusions.Library
