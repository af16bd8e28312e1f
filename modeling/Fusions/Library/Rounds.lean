import Mathlib.Data.List.Nodup
import Mathlib.Data.List.Perm.Basic
import Mathlib.Data.Set.Finite.Basic
import Mathlib.Logic.Relation
import Mathlib.Order.WellFounded

/-! Building in rounds what depends on one another: every round goes over what is left and builds what has all its
dependencies, until nothing is left or a round builds nothing. -/
namespace Fusions.Library
universe u v

/-- Items with the names they go by and the names they need, some of which are there from the start. -/
structure Dependencies (α : Type u) (κ : Type v) where
  items : List α
  name : α → κ
  needs : α → List κ
  given : κ → Prop

namespace Dependencies
variable {α : Type u} {κ : Type v} (D : Dependencies α κ)

/-- Everything that the item needs is given or done. -/
def Ready (done : List α) (a : α) : Prop := ∀ k ∈ D.needs a, D.given k ∨ ∃ b ∈ done, D.name b = k

/-- What has one name needs the other, and that is not given. -/
def Edge (n k : κ) : Prop := ∃ a ∈ D.items, D.name a = n ∧ k ∈ D.needs a ∧ ¬ D.given k

def Missing (k : κ) : Prop := ∀ a ∈ D.items, D.name a ≠ k

/-- The item depends, directly or not, on a missing name or on a cycle. -/
def Blocked (a : α) : Prop :=
  ∃ k, Relation.TransGen D.Edge (D.name a) k ∧ (D.Missing k ∨ Relation.TransGen D.Edge k k)

/-- Each item comes after what it needs. -/
def Ordered (built : List α) : Prop := ∀ pre a post, built = pre ++ a :: post → D.Ready pre a

/-- All is built, each item once and after what it needs, unless an item is blocked. -/
structure InOrder (outcome : Option (List α)) : Prop where
  fails : outcome = none ↔ ∃ a ∈ D.items, D.Blocked a
  built : ∀ built ∈ outcome, built.Perm D.items ∧ D.Ordered built

/-- One round over the pending items. -/
inductive Round : (done pending done' left : List α) → Prop where
  | nil {done : List α} : Round done [] done []
  | builds {done rest done' left : List α} {a : α} : D.Ready done a → Round (done ++ [a]) rest done' left →
      Round done (a :: rest) done' left
  | keeps {done rest done' left : List α} {a : α} : ¬ D.Ready done a → Round done rest done' left →
      Round done (a :: rest) done' (a :: left)

variable {D} {done pending done' left : List α}

theorem Round.perm (h : D.Round done pending done' left) : (done' ++ left).Perm (done ++ pending) := by
  induction h with
  | nil => exact .refl _
  | builds _ _ ih => rwa [List.append_assoc, List.singleton_append] at ih
  | keeps _ _ ih => exact List.perm_middle.trans ((ih.cons _).trans List.perm_middle.symm)

theorem Round.sublist (h : D.Round done pending done' left) : left.Sublist pending := by
  induction h with
  | nil => exact .slnil
  | builds _ _ ih => exact ih.cons _
  | keeps _ _ ih => exact ih.cons_cons _

theorem Round.subset (h : D.Round done pending done' left) : done ⊆ done' := by
  induction h with
  | nil => exact List.Subset.refl _
  | builds _ _ ih => exact List.Subset.trans (List.subset_append_left _ _) ih
  | keeps _ _ ih => exact ih

/-- A round that leaves as much as there was has found nothing ready. -/
theorem Round.idle (h : D.Round done pending done' left) (hlength : ¬ left.length < pending.length) :
    ∀ a ∈ pending, ¬ D.Ready done a := by
  induction h with
  | nil => exact fun _ hmem => absurd hmem List.not_mem_nil
  | builds _ hround _ => exact absurd (Nat.lt_succ_of_le hround.sublist.length_le) hlength
  | keeps hready _ ih =>
    rw [List.forall_mem_cons]
    exact ⟨hready, ih fun hlt => hlength (Nat.succ_lt_succ hlt)⟩

theorem Ordered.snoc {a : α} (h : D.Ordered done) (ha : D.Ready done a) : D.Ordered (done ++ [a]) := by
  intro pre b post heq
  obtain rfl | ⟨post, c, rfl⟩ := List.eq_nil_or_concat post
  · obtain ⟨rfl, hab⟩ := List.append_inj' heq rfl
    rw [← List.singleton_inj.mp hab]
    exact ha
  · rw [List.concat_eq_append, ← List.cons_append, ← List.append_assoc] at heq
    exact h pre b post (List.append_inj' heq rfl).1

theorem Round.ordered (h : D.Round done pending done' left) (hdone : D.Ordered done) : D.Ordered done' := by
  induction h with
  | nil => exact hdone
  | builds hready _ ih => exact ih (hdone.snoc hready)
  | keeps _ _ ih => exact ih hdone

/-! What is left when nothing is ready. -/

/-- What an item depends on, directly or not, is built before it. -/
theorem Ordered.before {built : List α} (hnames : (D.items.map D.name).Nodup) (hperm : built.Perm D.items)
    (h : D.Ordered built) {n k : κ} (hpath : Relation.TransGen D.Edge n k) {pre post : List α} {a : α}
    (hbuilt : built = pre ++ a :: post) (ha : D.name a = n) : ∃ b ∈ pre, D.name b = k := by
  have hnext : ∀ {n k : κ} {pre post : List α} {a : α}, D.Edge n k → built = pre ++ a :: post → D.name a = n →
      ∃ b ∈ pre, D.name b = k := by
    rintro n k pre post a ⟨a', ha', hname, hk, hgiven⟩ hbuilt rfl
    have hmem : a ∈ D.items := hperm.mem_iff.mp (by rw [hbuilt]; simp)
    obtain rfl : a' = a := List.inj_on_of_nodup_map hnames ha' hmem hname
    exact (h pre a' post hbuilt k hk).resolve_left hgiven
  induction hpath with
  | single hedge => exact hnext hedge hbuilt ha
  | tail _ hedge ih =>
    obtain ⟨b, hb, hname⟩ := ih
    obtain ⟨pre', post', rfl⟩ := List.append_of_mem hb
    rw [List.append_assoc, List.cons_append] at hbuilt
    obtain ⟨c, hc, hname'⟩ := hnext hedge hbuilt hname
    exact ⟨c, List.mem_append_left _ hc, hname'⟩

end Dependencies

end Fusions.Library
