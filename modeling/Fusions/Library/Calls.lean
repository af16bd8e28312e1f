import Mathlib.Data.List.Basic

/-! Calls under way: a list in which each call keeps its place, and one moves at a time. -/
namespace Fusions.Library
universe u
variable {α : Type u} {calls : List α} {place i : Nat} {call call' other : α}

/-- The calls after a move are what they were, but for the one that moved. -/
theorem getElem?_moved (hcall : calls[place]? = some call) (call' : α) (i : Nat) :
    (calls.set place call')[i]? = if i = place then some call' else calls[i]? := by
  rw [List.getElem?_set]
  obtain ⟨hlt, -⟩ := List.getElem?_eq_some_iff.1 hcall
  by_cases hi : place = i
  · subst hi
    simp [hlt]
  · simp [hi, Ne.symm hi]

/-- A call after a move is the one that moved, or another that has not. -/
theorem eq_or_of_moved (hcall : calls[place]? = some call) (hat : (calls.set place call')[i]? = some other) :
    (i = place ∧ other = call') ∨ (i ≠ place ∧ calls[i]? = some other) := by
  rw [getElem?_moved hcall] at hat
  by_cases hi : i = place
  · rw [if_pos hi] at hat
    exact .inl ⟨hi, (Option.some.inj hat).symm⟩
  · rw [if_neg hi] at hat
    exact .inr ⟨hi, hat⟩

theorem moved_self (hcall : calls[place]? = some call) (call' : α) : (calls.set place call')[place]? = some call' := by
  rw [getElem?_moved hcall, if_pos rfl]

theorem moved_of_ne (hcall : calls[place]? = some call) (call' : α) (hi : i ≠ place) :
    (calls.set place call')[i]? = calls[i]? := by
  rw [getElem?_moved hcall, if_neg hi]

/-- A move keeps every call but the one that moved. -/
theorem mem_moved (hcall : calls[place]? = some call) (call' : α) (hother : other ∈ calls) (hne : other ≠ call) :
    other ∈ calls.set place call' := by
  obtain ⟨i, hi⟩ := List.getElem?_of_mem hother
  have hplace : i ≠ place := by
    rintro rfl
    exact hne (Option.some.inj (hi.symm.trans hcall))
  exact List.mem_of_getElem? ((moved_of_ne hcall call' hplace).trans hi)

/-- A call after another has begun is that one, or was there before. -/
theorem eq_or_of_begun (hat : (calls ++ [call'])[i]? = some other) :
    (i = calls.length ∧ other = call') ∨ calls[i]? = some other := by
  rw [List.getElem?_append] at hat
  split at hat
  · exact .inr hat
  · next hle =>
    obtain ⟨hzero, hother⟩ := List.getElem?_eq_some_iff.1 hat
    have hi : i = calls.length := by
      simp at hzero
      omega
    subst hi
    exact .inl ⟨rfl, by simpa using hother.symm⟩

theorem begun_of_getElem? (hat : calls[i]? = some other) (call' : α) : (calls ++ [call'])[i]? = some other := by
  obtain ⟨hlt, -⟩ := List.getElem?_eq_some_iff.1 hat
  rw [List.getElem?_append_left hlt, hat]

end Fusions.Library
