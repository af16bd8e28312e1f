import Mathlib.Algebra.GroupWithZero.Nat
import Mathlib.Data.List.Basic

/-! Parts between separators. -/
namespace Fusions.Library

/-- Decided along the list, not over the type. -/
theorem forall_mem_of_all {α : Type} {P : α → Prop} [DecidablePred P] {l : List α}
    (h : (l.all fun x => decide (P x)) = true) : ∀ x ∈ l, P x :=
  fun x hx => of_decide_eq_true (List.all_eq_true.1 h x hx)

theorem flatMap_intercalate {α β : Type} (f : α → List β) (sep : List α) (parts : List (List α)) :
    (sep.intercalate parts).flatMap f = (sep.flatMap f).intercalate (parts.map fun part => part.flatMap f) := by
  induction parts with
  | nil => rfl
  | cons part parts ih =>
    cases parts with
    | nil => simp
    | cons next parts =>
      rw [List.intercalate_cons_cons, List.flatMap_append, List.flatMap_append, ih, List.map_cons, List.map_cons,
        List.map_cons, List.intercalate_cons_cons]

theorem forall_mem_intercalate {α : Type} {P : α → Prop} {sep : List α} {parts : List (List α)}
    (hsep : ∀ x ∈ sep, P x) (hparts : ∀ part ∈ parts, ∀ x ∈ part, P x) : ∀ x ∈ sep.intercalate parts, P x := by
  induction parts with
  | nil => simp
  | cons part parts ih =>
    obtain ⟨hpart, hrest⟩ := List.forall_mem_cons.1 hparts
    cases parts with
    | nil => simpa using hpart
    | cons next parts =>
      rw [List.intercalate_cons_cons, List.forall_mem_append, List.forall_mem_append]
      exact ⟨⟨hpart, hsep⟩, ih hrest⟩

theorem mem_intercalate_of_mem {α : Type} {sep : List α} {parts : List (List α)} {part : List α} {x : α}
    (hpart : part ∈ parts) (hx : x ∈ part) : x ∈ sep.intercalate parts := by
  induction parts with
  | nil => exact absurd hpart List.not_mem_nil
  | cons first parts ih =>
    cases parts with
    | nil =>
      obtain rfl := List.mem_singleton.1 hpart
      simpa using hx
    | cons next parts =>
      rw [List.intercalate_cons_cons]
      rcases List.mem_cons.1 hpart with rfl | hpart
      · exact List.mem_append_left _ (List.mem_append_left _ hx)
      · exact List.mem_append_right _ (ih hpart)

theorem length_intercalate {χ : Type} (sep : χ) {texts : List (List χ)} (hne : texts ≠ []) :
    ([sep].intercalate texts).length + 1 = (texts.map fun text => text.length + 1).sum := by
  obtain ⟨first, texts, rfl⟩ := List.exists_cons_of_ne_nil hne
  induction texts generalizing first with
  | nil => simp
  | cons second texts ih =>
    have hrest := ih second (by simp)
    rw [List.intercalate_cons_cons, List.map_cons, List.sum_cons, ← hrest]
    simp
    omega

theorem mem_of_mem_splitOn {α : Type} [DecidableEq α] {sep : α} {l part : List α} (h : part ∈ l.splitOn sep) {x : α}
    (hx : x ∈ part) : x ∈ l := by
  have hmem : x ∈ [sep].intercalate (l.splitOn sep) := mem_intercalate_of_mem h hx
  rwa [List.intercalate_splitOn] at hmem

theorem not_mem_of_mem_splitOn {α : Type} [DecidableEq α] {sep : α} {l part : List α} (h : part ∈ l.splitOn sep) :
    sep ∉ part := by
  induction l generalizing part with
  | nil =>
    obtain rfl := List.mem_singleton.1 h
    exact List.not_mem_nil
  | cons x l ih =>
    rw [List.splitOn_cons_eq_if_modifyHead] at h
    split at h
    · rcases List.mem_cons.1 h with rfl | h
      · exact List.not_mem_nil
      · exact ih h
    · next hx =>
      obtain ⟨first, rest, hsplit⟩ := List.exists_cons_of_ne_nil (List.splitOn_ne_nil sep l)
      rw [hsplit, List.modifyHead_cons] at h
      rcases List.mem_cons.1 h with rfl | h
      · intro hmem
        rcases List.mem_cons.1 hmem with rfl | hmem
        · simp at hx
        · exact ih (by rw [hsplit]; exact List.mem_cons_self) hmem
      · exact ih (by rw [hsplit]; exact List.mem_cons_of_mem _ h)

/-- What is before the first separator, and what is after it. -/
def splitOnce {α : Type} [DecidableEq α] (sep : α) : List α → Option (List α × List α)
  | [] => none
  | x :: l => if x = sep then some ([], l) else (splitOnce sep l).map fun parts => (x :: parts.1, parts.2)

theorem splitOnce_append {α : Type} [DecidableEq α] {sep : α} {l : List α} (h : sep ∉ l) (rest : List α) :
    splitOnce sep (l ++ sep :: rest) = some (l, rest) := by
  induction l with
  | nil => exact if_pos rfl
  | cons x l ih =>
    rw [List.mem_cons, not_or] at h
    rw [List.cons_append, splitOnce, if_neg (Ne.symm h.1), ih h.2, Option.map_some]

end Fusions.Library
