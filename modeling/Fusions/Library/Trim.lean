import Mathlib.Data.List.DropRight

/-! Trimming white space. -/
namespace Fusions.Library

/-- `char::is_whitespace`: the Unicode property White_Space. -/
def isWhitespace (c : Char) : Bool :=
  let n := c.toNat
  (9 ≤ n && n ≤ 13) || n == 32 || n == 0x85 || n == 0xA0 || n == 0x1680 || (0x2000 ≤ n && n ≤ 0x200A) ||
    n == 0x2028 || n == 0x2029 || n == 0x202F || n == 0x205F || n == 0x3000

/-- `str::trim`. -/
def trim (s : String) : String :=
  String.ofList ((s.toList.dropWhile isWhitespace).reverse.dropWhile isWhitespace).reverse

theorem trim_of_forall {s : String} (h : ∀ c ∈ s.toList, isWhitespace c = false) : trim s = s := by
  have hkept : ∀ cs : List Char, (∀ c ∈ cs, isWhitespace c = false) → cs.dropWhile isWhitespace = cs := by
    intro cs hcs
    cases cs with
    | nil => rfl
    | cons c cs => rw [List.dropWhile_cons_of_neg (by simp [hcs c (List.mem_cons_self ..)])]
  rw [trim, hkept _ h, hkept _ fun c hc => h c (List.mem_reverse.1 hc), List.reverse_reverse, String.ofList_toList]

/-- White space behind a text is trimmed. -/
theorem trim_append {cs space : List Char} (h : ∀ c ∈ space, isWhitespace c = true) :
    trim (String.ofList (cs ++ space)) = trim (String.ofList cs) := by
  unfold trim
  simp only [String.toList_ofList]
  rw [List.dropWhile_append]
  split
  · next hnil =>
    rw [List.isEmpty_iff.1 hnil, List.dropWhile_eq_nil_iff.2 h]
  · rw [List.reverse_append, List.dropWhile_append_of_pos fun c hc => h c (List.mem_reverse.1 hc)]

theorem trim_eq_empty {cs : List Char} : trim (String.ofList cs) = "" ↔ ∀ c ∈ cs, isWhitespace c = true := by
  rw [trim, String.toList_ofList]
  constructor
  · intro h
    have hnil : ((cs.dropWhile isWhitespace).reverse.dropWhile isWhitespace).reverse = [] := by
      rw [← String.toList_ofList (l := List.reverse _), h, String.toList_empty]
    have hall := List.dropWhile_eq_nil_iff.1 (List.reverse_eq_nil_iff.1 hnil)
    refine List.dropWhile_eq_nil_iff.1 ?_
    cases hdrop : cs.dropWhile isWhitespace with
    | nil => rfl
    | cons c rest =>
      have hc := hall c (by rw [hdrop]; exact List.mem_reverse.2 (List.mem_cons_self ..))
      have hstop := List.head_dropWhile_not (p := isWhitespace) (l := cs) (by rw [hdrop]; exact List.cons_ne_nil _ _)
      simp only [hdrop, List.head_cons] at hstop
      exact absurd (hc.symm.trans hstop) Bool.noConfusion
  · intro h
    rw [List.dropWhile_eq_nil_iff.2 h]
    rfl

end Fusions.Library
