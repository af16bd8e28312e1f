import Mathlib.Data.List.Basic

/-! Histories: lists whose entries are each accounted for by the entries before. -/
namespace Fusions.Library
variable {α : Type*} {accounts : List α → α → Prop} {xs ys : List α} {x : α}

/-- A list whose entries are each accounted for by those before. -/
inductive History (accounts : List α → α → Prop) : List α → Prop where
  | nil : History accounts []
  | snoc {xs : List α} {x : α} : History accounts xs → accounts xs x → History accounts (xs ++ [x])

namespace History

/-- Every entry is accounted for by those before it. -/
theorem accounted (h : History accounts (xs ++ x :: ys)) : accounts xs x := by
  generalize hzs : xs ++ x :: ys = zs at h
  induction h generalizing ys with
  | nil => simp at hzs
  | @snoc zs z hprefix hlast ih =>
    rcases List.eq_nil_or_concat' ys with rfl | ⟨ys', y, rfl⟩
    · obtain ⟨rfl, hx⟩ := List.append_inj' hzs rfl
      obtain rfl := List.singleton_inj.1 hx
      exact hlast
    · have hzs' : (xs ++ x :: ys') ++ [y] = zs ++ [z] := by simpa using hzs
      exact ih (List.append_inj' hzs' rfl).1

/-- Entries that change as their accounts allow. -/
theorem map {g : α → α} (hg : ∀ xs x, accounts xs x → accounts (xs.map g) (g x)) (h : History accounts xs) :
    History accounts (xs.map g) := by
  induction h with
  | nil => exact .nil
  | @snoc xs x _ hlast ih =>
    rw [List.map_append]
    exact .snoc ih (hg xs x hlast)

/-- What the entries before an entry hand on to it, every entry has. -/
theorem forall_mem {P : α → Prop} (hP : ∀ xs x, (∀ y ∈ xs, P y) → accounts xs x → P x) (h : History accounts xs) :
    ∀ x ∈ xs, P x := by
  induction h with
  | nil => simp
  | snoc _ hlast ih =>
    intro z hz
    rcases List.mem_append.1 hz with hz | hz
    · exact ih z hz
    · rw [List.mem_singleton.1 hz]
      exact hP _ _ ih hlast

end History
end Fusions.Library
