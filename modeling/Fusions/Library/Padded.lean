import Mathlib.Algebra.Group.Nat.Defs
import Mathlib.Data.List.Basic

/-! Decimal numerals with leading zeros, and their lexicographic order. -/
namespace Fusions.Library

/-- The decimal digits of a number, with zeros in front up to a width. -/
def padded (width n : Nat) : List Char :=
  List.replicate (width - (Nat.toDigits 10 n).length) '0' ++ Nat.toDigits 10 n

theorem append_lt_append {α : Type} [LT α] {a b : List α} (h : a < b) (hlength : a.length = b.length)
    (x y : List α) : a ++ x < b ++ y := by
  induction a generalizing b with
  | nil =>
    cases b with
    | nil => cases h
    | cons d b => cases hlength
  | cons c a ih =>
    cases b with
    | nil => cases h
    | cons d b =>
      rw [List.cons_append, List.cons_append]
      apply List.cons_lt_cons_iff.mpr
      obtain hlt | ⟨rfl, hlt⟩ := List.cons_lt_cons_iff.mp h
      · exact .inl hlt
      · exact .inr ⟨rfl, ih hlt (Nat.succ.inj hlength)⟩

/-- The last digit apart. -/
theorem padded_succ {width : Nat} (h : 0 < width) (n : Nat) :
    padded (width + 1) n = padded width (n / 10) ++ [(n % 10).digitChar] := by
  obtain hlt | hle := Nat.lt_or_ge n 10
  · rw [padded, padded, Nat.toDigits_of_lt_base hlt, Nat.div_eq_of_lt hlt, Nat.mod_eq_of_lt hlt, Nat.toDigits_zero]
    obtain ⟨width, rfl⟩ := Nat.exists_eq_succ_of_ne_zero (Nat.ne_of_gt h)
    simp [List.replicate_succ']
  · rw [padded, padded, Nat.toDigits_of_base_le (by decide) hle]
    simp

theorem length_padded {width n : Nat} (h : 0 < width) (hn : n < 10 ^ width) : (padded width n).length = width := by
  have hle := (Nat.length_toDigits_le_iff (by decide) h).mpr hn
  rw [padded, List.length_append, List.length_replicate]
  omega

theorem width_le_length_padded (width n : Nat) : width ≤ (padded width n).length := by
  rw [padded, List.length_append, List.length_replicate]
  omega

theorem length_padded_gt {width n : Nat} (h : 0 < width) (hn : 10 ^ width ≤ n) : width < (padded width n).length := by
  have hgt := mt (Nat.length_toDigits_le_iff (by decide) h).mp (Nat.not_lt.mpr hn)
  rw [padded, List.length_append]
  omega

theorem isDigit_padded {width n : Nat} {c : Char} (h : c ∈ padded width n) : c.isDigit = true := by
  obtain h | h := List.mem_append.mp h
  · rw [List.eq_of_mem_replicate h]
    rfl
  · exact Nat.isDigit_of_mem_toDigits (by decide) (by decide) h

theorem digitChar_lt {a b : Nat} (h : a < b) (hb : b < 10) : a.digitChar < b.digitChar := by
  have hall : ∀ b < 10, ∀ a < b, a.digitChar < b.digitChar := by decide
  exact hall b hb a h

/-- The numerals of a width are ordered as their numbers. -/
theorem padded_lt {width m n : Nat} (h : 0 < width) (hmn : m < n) (hn : n < 10 ^ width) :
    padded width m < padded width n := by
  induction width generalizing m n with
  | zero => exact absurd h (Nat.lt_irrefl 0)
  | succ width ih =>
    obtain rfl | hpos := Nat.eq_zero_or_pos width
    · have hn : n < 10 := hn
      rw [padded, padded, Nat.toDigits_of_lt_base hn, Nat.toDigits_of_lt_base (Nat.lt_trans hmn hn)]
      exact List.cons_lt_cons_iff.mpr (.inl (digitChar_lt hmn hn))
    · rw [padded_succ hpos, padded_succ hpos]
      have hn' : n / 10 < 10 ^ width := Nat.div_lt_of_lt_mul (by rwa [Nat.pow_succ, Nat.mul_comm] at hn)
      obtain hlt | heq := Nat.lt_or_eq_of_le (Nat.div_le_div_right (Nat.le_of_lt hmn))
      · apply append_lt_append (ih hpos hlt hn')
        rw [length_padded hpos hn', length_padded hpos (Nat.lt_trans hlt hn')]
      · rw [heq]
        apply List.append_left_lt
        exact List.cons_lt_cons_iff.mpr (.inl (digitChar_lt (by omega) (by omega)))

end Fusions.Library
