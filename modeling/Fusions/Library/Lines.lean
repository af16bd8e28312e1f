import Mathlib.Data.List.DropRight

/-! The lines of a sequence that comes piece by piece: those that are ended, and the one that is still open. -/
namespace Fusions.Library
variable {α : Type} [DecidableEq α] {newline : α}

def completeLines (newline : α) (s : List α) : List (List α) := (s.splitOn newline).dropLast

/-- What is behind the last newline. -/
def openLine (newline : α) (s : List α) : List α := s.rtakeWhile (· ≠ newline)

theorem completeLines_of_notMem {s : List α} (h : newline ∉ s) : completeLines newline s = [] := by
  rw [completeLines, List.splitOn_eq_singleton h, List.dropLast_singleton]

theorem openLine_of_notMem {s : List α} (h : newline ∉ s) : openLine newline s = s := by
  refine List.rtakeWhile_eq_self_iff.2 fun x hx => ?_
  have hne : x ≠ newline := by
    rintro rfl
    exact h hx
  simpa using hne

theorem completeLines_cons {line : List α} (h : newline ∉ line) (rest : List α) :
    completeLines newline (line ++ newline :: rest) = line :: completeLines newline rest := by
  rw [completeLines, List.splitOn_append_cons_self_of_not_mem h,
    List.dropLast_cons_of_ne_nil (List.splitOn_ne_nil newline rest)]
  rfl

theorem openLine_cons (line rest : List α) : openLine newline (line ++ newline :: rest) = openLine newline rest := by
  unfold openLine List.rtakeWhile
  rw [List.reverse_append, List.reverse_cons, List.append_assoc, List.takeWhile_append]
  have hstop : ([newline] ++ line.reverse).takeWhile (fun x => decide (x ≠ newline)) = [] := by simp
  rw [hstop, List.append_nil]
  split
  · next hlength =>
    have hstart := List.takeWhile_prefix (l := rest.reverse) fun x => decide (x ≠ newline)
    rw [hstart.eq_of_length hlength]
  · rfl

/-- Induction along the lines. -/
@[elab_as_elim]
theorem lines_induction (newline : α) {motive : List α → Prop} (last : ∀ s, newline ∉ s → motive s)
    (line : ∀ line rest, newline ∉ line → motive rest → motive (line ++ newline :: rest)) (s : List α) : motive s := by
  induction hn : s.length using Nat.strongRecOn generalizing s with
  | ind n ih =>
    by_cases h : newline ∈ s
    · obtain ⟨front, rest, rfl, hfront⟩ := List.eq_append_cons_of_mem h
      refine line front rest hfront (ih rest.length ?_ rest rfl)
      rw [← hn, List.length_append, List.length_cons]
      omega
    · exact last s h

theorem newline_notMem_openLine (s : List α) : newline ∉ openLine newline s := by
  intro h
  simpa using List.mem_rtakeWhile_imp h

/-- The ended lines, and the open one behind them. -/
theorem exists_openLine (newline : α) (s : List α) :
    s = openLine newline s ∨ ∃ front, s = front ++ newline :: openLine newline s := by
  induction s using lines_induction newline with
  | last s h => exact .inl (openLine_of_notMem h).symm
  | line line rest _ ih =>
    rw [openLine_cons]
    rcases ih with ih | ⟨front, ih⟩
    · exact .inr ⟨line, congrArg (line ++ newline :: ·) ih⟩
    · refine .inr ⟨line ++ newline :: front, ?_⟩
      rw [List.append_assoc, List.cons_append, ← ih]

/-- What comes next goes on with the open line. -/
theorem completeLines_append (s t : List α) : completeLines newline (s ++ t) =
    completeLines newline s ++ completeLines newline (openLine newline s ++ t) := by
  induction s using lines_induction newline with
  | last s h => rw [completeLines_of_notMem h, openLine_of_notMem h, List.nil_append]
  | line line rest h ih =>
    rw [List.append_assoc, List.cons_append, completeLines_cons h, completeLines_cons h, openLine_cons, ih,
      List.cons_append]

theorem openLine_append (s t : List α) : openLine newline (s ++ t) = openLine newline (openLine newline s ++ t) := by
  rcases exists_openLine newline s with h | ⟨front, h⟩
  · rw [← h]
  · have happend : s ++ t = front ++ newline :: (openLine newline s ++ t) := by
      rw [← List.cons_append, ← List.append_assoc, ← h]
    rw [happend, openLine_cons]

end Fusions.Library
