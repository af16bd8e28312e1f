import Mathlib.Data.List.Infix

/-! Searching and slicing a text. Positions are numbers of bytes, as in a string of UTF-8. -/
namespace Fusions.Library

/-- What is left of a text after some bytes, unless they end inside a character. -/
def dropBytes : List Char → Nat → Option (List Char)
  | cs, 0 => some cs
  | [], _ + 1 => none
  | c :: cs, n + 1 => if c.utf8Size ≤ n + 1 then dropBytes cs (n + 1 - c.utf8Size) else none

def takeBytes : List Char → Nat → Option (List Char)
  | _, 0 => some []
  | [], _ + 1 => none
  | c :: cs, n + 1 => if c.utf8Size ≤ n + 1 then (takeBytes cs (n + 1 - c.utf8Size)).map (c :: ·) else none

def byteLength : List Char → Nat
  | [] => 0
  | c :: cs => c.utf8Size + byteLength cs

/-- `str::find`: where a pattern stands first. -/
def find (pat : List Char) : List Char → Option Nat
  | [] => if pat <+: [] then some 0 else none
  | c :: cs => if pat <+: c :: cs then some 0 else (find pat cs).map (c.utf8Size + ·)

/-- `str::strip_prefix`. -/
def stripPrefix (pat s : List Char) : Option (List Char) := if pat <+: s then some (s.drop pat.length) else none

/-- The parts of a text around the first place of a pattern. -/
structure FoundAt (pat s before after : List Char) : Prop where
  eq : s = before ++ (pat ++ after)
  first : ∀ front back, s = front ++ (pat ++ back) → before.length ≤ front.length

/-- No end of the pattern is also its beginning. -/
def Unbordered (pat : List Char) : Prop := ∀ front back, pat = front ++ back → front ≠ [] → back <+: pat → back = []

section
variable {pat s before after : List Char}

theorem dropBytes_zero (s : List Char) : dropBytes s 0 = some s := by
  cases s <;> rfl

theorem byteLength_append (front rest : List Char) :
    byteLength (front ++ rest) = byteLength front + byteLength rest := by
  induction front with
  | nil => rw [List.nil_append, byteLength, Nat.zero_add]
  | cons c front ih => rw [List.cons_append, byteLength, byteLength, ih, Nat.add_assoc]

theorem dropBytes_append (front rest : List Char) (n : Nat) :
    dropBytes (front ++ rest) (byteLength front + n) = dropBytes rest n := by
  induction front with
  | nil => rw [byteLength, Nat.zero_add, List.nil_append]
  | cons c front ih =>
    have hpos := c.utf8Size_pos
    obtain ⟨k, hk⟩ : ∃ k, byteLength (c :: front) + n = k + 1 := ⟨byteLength (c :: front) + n - 1, by
      rw [byteLength]
      omega⟩
    rw [List.cons_append, hk, dropBytes, ← hk, byteLength, if_pos (by omega), Nat.add_assoc, Nat.add_sub_cancel_left,
      ih]

theorem dropBytes_byteLength (front rest : List Char) : dropBytes (front ++ rest) (byteLength front) = some rest := by
  rw [← Nat.add_zero (byteLength front), dropBytes_append, dropBytes_zero]

/-- The slice behind a character of one byte. -/
theorem dropBytes_past {c : Char} (hc : c.utf8Size = 1) (front rest : List Char) :
    dropBytes (front ++ c :: rest) (byteLength front + 1) = some rest := by
  have hlength : byteLength [c] = 1 := hc
  rw [dropBytes_append, ← hlength, ← List.singleton_append, dropBytes_byteLength]

theorem takeBytes_byteLength (front rest : List Char) :
    takeBytes (front ++ rest) (byteLength front) = some front := by
  induction front with
  | nil => cases rest <;> rfl
  | cons c front ih =>
    have hpos := c.utf8Size_pos
    obtain ⟨k, hk⟩ : ∃ k, byteLength (c :: front) = k + 1 := ⟨byteLength (c :: front) - 1, by
      rw [byteLength]
      omega⟩
    rw [List.cons_append, hk, takeBytes, ← hk, byteLength, if_pos (by omega), Nat.add_sub_cancel_left, ih]
    rfl

theorem FoundAt.find_eq (h : FoundAt pat s before after) : find pat s = some (byteLength before) := by
  obtain ⟨rfl, hfirst⟩ := h
  induction before with
  | nil =>
    cases hs : pat ++ after with
    | nil =>
      have hpat : pat <+: [] := ⟨after, hs⟩
      exact if_pos hpat
    | cons c cs =>
      have hpat : pat <+: c :: cs := ⟨after, hs⟩
      exact if_pos hpat
  | cons c before ih =>
    have hnot : ¬pat <+: c :: (before ++ (pat ++ after)) := by
      rintro ⟨back, hback⟩
      exact absurd (hfirst [] back hback.symm) (by simp)
    rw [List.cons_append, find, if_neg hnot, ih, byteLength]
    · rfl
    · intro front back heq
      exact Nat.le_of_succ_le_succ (hfirst (c :: front) back (congrArg (c :: ·) heq))

theorem find_none (h : ¬pat <:+: s) : find pat s = none := by
  induction s with
  | nil => exact if_neg fun hprefix => h hprefix.isInfix
  | cons c cs ih =>
    rw [find, if_neg fun hprefix => h hprefix.isInfix, ih fun hin => h (List.infix_cons hin)]
    rfl

theorem exists_foundAt (h : pat <:+: s) : ∃ before after, FoundAt pat s before after := by
  induction s with
  | nil =>
    obtain ⟨before, after, heq⟩ := h
    obtain ⟨hfront, rfl⟩ := List.append_eq_nil_iff.1 heq
    obtain ⟨rfl, rfl⟩ := List.append_eq_nil_iff.1 hfront
    exact ⟨[], [], rfl, fun front back _ => Nat.zero_le _⟩
  | cons c cs ih =>
    by_cases hprefix : pat <+: c :: cs
    · obtain ⟨after, heq⟩ := hprefix
      exact ⟨[], after, heq.symm, fun front back _ => Nat.zero_le _⟩
    · obtain ⟨before, after, heq, hfirst⟩ := ih ((List.infix_cons_iff.1 h).resolve_left hprefix)
      refine ⟨c :: before, after, congrArg (c :: ·) heq, fun front back hfront => ?_⟩
      cases front with
      | nil => exact absurd ⟨back, hfront.symm⟩ hprefix
      | cons d front => exact Nat.succ_le_succ (hfirst front back (List.cons.inj hfront).2)

/-- A search ends without a place, or with the first one. -/
theorem find_cases (pat s : List Char) : (find pat s = none ∧ ¬pat <:+: s) ∨
    ∃ before after, find pat s = some (byteLength before) ∧ FoundAt pat s before after := by
  by_cases h : pat <:+: s
  · obtain ⟨before, after, hat⟩ := exists_foundAt h
    exact .inr ⟨before, after, hat.find_eq, hat⟩
  · exact .inl ⟨find_none h, h⟩

theorem stripPrefix_append (pat content : List Char) : stripPrefix pat (pat ++ content) = some content := by
  rw [stripPrefix, if_pos (List.prefix_append pat content), List.drop_left]

theorem stripPrefix_cases (pat s : List Char) :
    (∃ content, s = pat ++ content ∧ stripPrefix pat s = some content) ∨ ¬pat <+: s ∧ stripPrefix pat s = none := by
  by_cases h : pat <+: s
  · obtain ⟨content, rfl⟩ := h
    exact .inl ⟨content, rfl, stripPrefix_append pat content⟩
  · exact .inr ⟨h, if_neg h⟩

/-- A text is read up to the first place of a pattern, or to its end. -/
theorem upTo_cases (pat s : List Char) : ∃ value more, s = value ++ more ∧
    takeBytes s ((find pat s).getD (byteLength s)) = some value ∧
    dropBytes s ((find pat s).getD (byteLength s)) = some more := by
  obtain ⟨hfind, -⟩ | ⟨before, after, hfind, heq, -⟩ := find_cases pat s
  · refine ⟨s, [], (List.append_nil s).symm, ?_, ?_⟩
    · have htake := takeBytes_byteLength s []
      rw [List.append_nil] at htake
      rw [hfind, Option.getD_none, htake]
    · have hdrop := dropBytes_byteLength s []
      rw [List.append_nil] at hdrop
      rw [hfind, Option.getD_none, hdrop]
  · refine ⟨before, pat ++ after, heq, ?_, ?_⟩
    · rw [hfind, Option.getD_some, heq, takeBytes_byteLength]
    · rw [hfind, Option.getD_some, heq, dropBytes_byteLength]

theorem notMem_iff_notInfix {c : Char} : c ∉ s ↔ ¬[c] <:+: s := by
  rw [List.singleton_infix_iff]

theorem foundAt_char {c : Char} (h : c ∉ before) (after : List Char) :
    FoundAt [c] (before ++ c :: after) before after := by
  refine ⟨rfl, fun front back heq => Nat.le_of_not_lt fun hlt => h ?_⟩
  rw [List.singleton_append, List.append_eq_append_iff] at heq
  obtain ⟨more, rfl, -⟩ | ⟨more, rfl, hmore⟩ := heq
  · exact absurd hlt (by simp)
  · cases more with
    | nil => exact absurd hlt (by simp)
    | cons d more =>
      obtain ⟨rfl, -⟩ := List.cons.inj hmore
      simp

theorem FoundAt.notMem {c : Char} (h : FoundAt [c] s before after) : c ∉ before := by
  intro hmem
  obtain ⟨front, back, rfl⟩ := List.append_of_mem hmem
  have hle := h.first front (back ++ c :: after) (by rw [h.eq]; simp)
  rw [List.length_append, List.length_cons] at hle
  omega

/-- A pattern without a character stands on one side of it. -/
theorem infix_append_cons {c : Char} {t : List Char} (hc : c ∉ pat) (h : pat <:+: s ++ c :: t) :
    pat <:+: s ∨ pat <:+: t := by
  obtain ⟨front, back, heq⟩ := h
  obtain ⟨more, rfl, -⟩ | ⟨more, hfront, hback⟩ := List.append_eq_append_iff.1 heq
  · exact .inl ⟨front, more, rfl⟩
  cases more with
  | nil =>
    rw [List.append_nil] at hfront
    exact .inl ⟨front, [], by rw [List.append_nil, hfront]⟩
  | cons d more =>
    obtain ⟨rfl, rfl⟩ := List.cons.inj hback
    obtain ⟨rest, rfl, hsplit⟩ | ⟨rest, rfl, hsplit⟩ := List.append_eq_append_iff.1 hfront
    · rw [hsplit] at hc
      exact absurd (List.mem_append_right _ List.mem_cons_self) hc
    · cases rest with
      | nil =>
        rw [← (List.nil_append _ : [] ++ pat = pat), ← hsplit] at hc
        exact absurd List.mem_cons_self hc
      | cons e rest =>
        obtain ⟨-, rfl⟩ := List.cons.inj hsplit
        exact .inr ⟨rest, back, rfl⟩

/-- A pattern whose last character stands nowhere else in it. -/
theorem unbordered_last {c : Char} (h : c ∉ pat) : Unbordered (pat ++ [c]) := by
  intro front back hsplit hfront hprefix
  cases hback : back.getLast? with
  | none => exact List.getLast?_eq_none_iff.1 hback
  | some d =>
    obtain ⟨init, rfl⟩ := List.getLast?_eq_some_iff.1 hback
    rw [← List.append_assoc] at hsplit
    obtain ⟨rfl, hlast⟩ := List.append_inj' hsplit rfl
    obtain rfl := List.singleton_inj.1 hlast
    obtain hwhole | hfront' := List.prefix_concat_iff.1 hprefix
    · have hlength := congrArg List.length hwhole
      have hpos := List.length_pos_of_ne_nil hfront
      simp only [List.length_append, List.length_singleton] at hlength
      omega
    · exact absurd (hfront'.subset (List.mem_append_right init (List.mem_singleton_self _))) h

/-- A pattern whose first character stands nowhere else in it. -/
theorem unbordered_head {c : Char} (h : c ∉ pat) : Unbordered (c :: pat) := by
  intro front back hsplit hfront hprefix
  cases back with
  | nil => rfl
  | cons d back =>
    obtain ⟨rfl, -⟩ := List.cons_prefix_cons.1 hprefix
    cases front with
    | nil => exact absurd rfl hfront
    | cons e front =>
      obtain ⟨-, rfl⟩ := List.cons.inj hsplit
      exact absurd (List.mem_append_right front List.mem_cons_self) h

/-- A pattern behind a text without it is found behind the text. -/
theorem Unbordered.foundAt (hpat : Unbordered pat) (h : ¬pat <:+: before) (after : List Char) :
    FoundAt pat (before ++ (pat ++ after)) before after := by
  refine ⟨rfl, fun front back heq => Nat.le_of_not_lt fun hlt => h ?_⟩
  rw [List.append_eq_append_iff] at heq
  obtain ⟨more, rfl, -⟩ | ⟨more, rfl, hmore⟩ := heq
  · exact absurd hlt (by simp)
  rw [List.append_eq_append_iff] at hmore
  obtain ⟨tail, rfl, -⟩ | ⟨tail, hsplit, hback⟩ := hmore
  · exact ⟨front, tail, by simp⟩
  · have hmore : more ≠ [] := by
      rintro rfl
      exact absurd hlt (by simp)
    have hle : tail.length ≤ pat.length := by
      rw [hsplit, List.length_append]
      exact Nat.le_add_left _ _
    have hprefix : tail <+: pat :=
      List.prefix_of_prefix_length_le ⟨back, hback.symm⟩ (List.prefix_append pat after) hle
    rw [hsplit, hpat more tail hsplit hmore hprefix, List.append_nil]
    exact (List.suffix_append front more).isInfix

end
end Fusions.Library
