import Mathlib.Data.List.Basic

/-! Regular expressions, searched for from the left and matched greedily. -/
namespace Fusions.Library

/-- One character of a class, a run of a class, or one expression behind another. -/
inductive Regex (α : Type) where
  | one (p : α → Bool)
  | plus (p : α → Bool)
  | seq (a b : Regex α)

namespace Regex
variable {α : Type}

/-- What is left behind each run, the longest first. -/
def plusRests (p : α → Bool) : List α → List (List α)
  | [] => []
  | c :: cs => if p c then plusRests p cs ++ [cs] else []

def oneRests (p : α → Bool) : List α → List (List α)
  | [] => []
  | c :: cs => if p c then [cs] else []

/-- What is left behind each match, in the order in which they are tried. -/
def rests : Regex α → List α → List (List α)
  | one p, s => oneRests p s
  | plus p, s => plusRests p s
  | seq a b, s => (a.rests s).flatMap b.rests

/-- The text in front of the leftmost match and the text behind it. -/
def search (r : Regex α) : List α → Option (List α × List α)
  | [] => (r.rests []).head?.map ([], ·)
  | c :: cs =>
    match (r.rests (c :: cs)).head? with
    | some rest => some ([], rest)
    | none => (search r cs).map fun found => (c :: found.1, found.2)

/-- The leftmost match is replaced. -/
def replace (r : Regex α) (s replacement : List α) : List α :=
  match r.search s with
  | none => s
  | some found => found.1 ++ (replacement ++ found.2)

inductive Matches : Regex α → List α → Prop where
  | one {p : α → Bool} {c : α} (h : p c = true) : Matches (one p) [c]
  | plus {p : α → Bool} {w : List α} (hne : w ≠ []) (h : ∀ c ∈ w, p c = true) : Matches (plus p) w
  | seq {a b : Regex α} {u v : List α} (ha : Matches a u) (hb : Matches b v) : Matches (seq a b) (u ++ v)

variable {r a b : Regex α} {p : α → Bool} {s w rest : List α}

theorem matches_one_iff : (one p).Matches w ↔ ∃ c, p c = true ∧ w = [c] := by
  constructor
  · rintro ⟨⟩
    exact ⟨_, ‹_›, rfl⟩
  · rintro ⟨c, h, rfl⟩
    exact .one h

theorem matches_plus_iff : (plus p).Matches w ↔ w ≠ [] ∧ ∀ c ∈ w, p c = true := by
  constructor
  · rintro ⟨⟩
    exact ⟨‹_›, ‹_›⟩
  · rintro ⟨hne, h⟩
    exact .plus hne h

theorem matches_seq_iff : (seq a b).Matches w ↔ ∃ u v, a.Matches u ∧ b.Matches v ∧ w = u ++ v := by
  constructor
  · rintro ⟨⟩
    exact ⟨_, _, ‹_›, ‹_›, rfl⟩
  · rintro ⟨u, v, ha, hb, rfl⟩
    exact .seq ha hb

theorem mem_oneRests : rest ∈ oneRests p s ↔ ∃ c, p c = true ∧ s = c :: rest := by
  cases s with
  | nil =>
    constructor
    · exact nofun
    · rintro ⟨c, -, h⟩
      cases h
  | cons c cs =>
    rw [oneRests]
    constructor
    · intro h
      split at h
      · next hc => exact ⟨c, hc, by rw [List.mem_singleton.1 h]⟩
      · cases h
    · rintro ⟨d, hd, heq⟩
      obtain ⟨rfl, rfl⟩ := List.cons.inj heq
      rw [if_pos hd]
      exact List.mem_singleton_self _

theorem mem_plusRests : rest ∈ plusRests p s ↔ ∃ w, w ≠ [] ∧ (∀ c ∈ w, p c = true) ∧ s = w ++ rest := by
  induction s with
  | nil =>
    constructor
    · exact nofun
    · rintro ⟨w, hne, -, heq⟩
      exact absurd (List.append_eq_nil_iff.1 heq.symm).1 hne
  | cons c cs ih =>
    rw [plusRests]
    constructor
    · intro h
      split at h
      · next hc =>
        rcases List.mem_append.1 h with h | h
        · obtain ⟨w, -, hw, rfl⟩ := ih.1 h
          exact ⟨c :: w, List.cons_ne_nil c w, List.forall_mem_cons.2 ⟨hc, hw⟩, rfl⟩
        · obtain rfl := List.mem_singleton.1 h
          exact ⟨[c], List.cons_ne_nil c [], List.forall_mem_singleton.2 hc, rfl⟩
      · cases h
    · rintro ⟨w, hne, hw, heq⟩
      cases w with
      | nil => exact absurd rfl hne
      | cons d w =>
        obtain ⟨rfl, rfl⟩ := List.cons.inj heq
        obtain ⟨hd, hw⟩ := List.forall_mem_cons.1 hw
        rw [if_pos hd, List.mem_append]
        cases w with
        | nil => exact .inr (List.mem_singleton_self _)
        | cons e w => exact .inl (ih.2 ⟨e :: w, List.cons_ne_nil e w, hw, rfl⟩)

/-- The matches that are tried are those of the language. -/
theorem mem_rests : rest ∈ r.rests s ↔ ∃ w, r.Matches w ∧ s = w ++ rest := by
  induction r generalizing s rest with
  | one p =>
    rw [rests, mem_oneRests]
    constructor
    · rintro ⟨c, hc, rfl⟩
      exact ⟨[c], .one hc, rfl⟩
    · rintro ⟨w, hw, rfl⟩
      obtain ⟨c, hc, rfl⟩ := matches_one_iff.1 hw
      exact ⟨c, hc, rfl⟩
  | plus p =>
    rw [rests, mem_plusRests]
    constructor
    · rintro ⟨w, hne, hw, rfl⟩
      exact ⟨w, .plus hne hw, rfl⟩
    · rintro ⟨w, hw, rfl⟩
      obtain ⟨hne, hw⟩ := matches_plus_iff.1 hw
      exact ⟨w, hne, hw, rfl⟩
  | seq a b iha ihb =>
    rw [rests, List.mem_flatMap]
    constructor
    · rintro ⟨mid, hmid, hrest⟩
      obtain ⟨u, hu, rfl⟩ := iha.1 hmid
      obtain ⟨v, hv, rfl⟩ := ihb.1 hrest
      exact ⟨u ++ v, .seq hu hv, (List.append_assoc u v rest).symm⟩
    · rintro ⟨w, hw, rfl⟩
      obtain ⟨u, v, hu, hv, rfl⟩ := matches_seq_iff.1 hw
      exact ⟨v ++ rest, iha.2 ⟨u, hu, List.append_assoc u v rest⟩, ihb.2 ⟨v, hv, rfl⟩⟩

/-- The parts of a text around a match, with no match that begins earlier. -/
structure FoundAt (r : Regex α) (s front w rest : List α) : Prop where
  eq : s = front ++ (w ++ rest)
  isMatch : r.Matches w
  first : ∀ front' w' rest', s = front' ++ (w' ++ rest') → r.Matches w' → front.length ≤ front'.length

theorem not_matches_of_head? (h : (r.rests s).head? = none) {w rest : List α} (heq : s = w ++ rest) :
    ¬r.Matches w := by
  intro hw
  rw [List.head?_eq_none_iff] at h
  have hmem := mem_rests.2 ⟨w, hw, heq⟩
  rw [h] at hmem
  cases hmem

theorem foundAt_of_head? (h : (r.rests s).head? = some rest) : ∃ w, FoundAt r s [] w rest := by
  obtain ⟨w, hw, heq⟩ := mem_rests.1 (List.mem_of_mem_head? h)
  exact ⟨w, heq, hw, fun _ _ _ _ _ => Nat.zero_le _⟩

/-- A search ends with the leftmost match, or there is none. -/
theorem search_cases (r : Regex α) (s : List α) :
    (r.search s = none ∧ ∀ front w rest, s = front ++ (w ++ rest) → ¬r.Matches w) ∨
      ∃ front w rest, r.search s = some (front, rest) ∧ FoundAt r s front w rest := by
  induction s with
  | nil =>
    rw [search]
    cases hhead : (r.rests []).head? with
    | none =>
      refine .inl ⟨rfl, fun front w rest heq => ?_⟩
      exact not_matches_of_head? hhead (List.append_eq_nil_iff.1 heq.symm).2.symm
    | some rest =>
      obtain ⟨w, hfound⟩ := foundAt_of_head? hhead
      exact .inr ⟨[], w, rest, rfl, hfound⟩
  | cons c cs ih =>
    rw [search]
    cases hhead : (r.rests (c :: cs)).head? with
    | some rest =>
      obtain ⟨w, hfound⟩ := foundAt_of_head? hhead
      exact .inr ⟨[], w, rest, rfl, hfound⟩
    | none =>
      obtain ⟨hnone, hno⟩ | ⟨front, w, rest, hsome, hfound⟩ := ih
      · rw [hnone]
        refine .inl ⟨rfl, fun front w rest heq => ?_⟩
        cases front with
        | nil => exact not_matches_of_head? hhead heq
        | cons d front => exact hno front w rest (List.cons.inj heq).2
      · rw [hsome]
        refine .inr ⟨c :: front, w, rest, rfl, congrArg (c :: ·) hfound.eq, hfound.isMatch, ?_⟩
        intro front' w' rest' heq hw'
        cases front' with
        | nil => exact absurd hw' (not_matches_of_head? hhead heq)
        | cons d front' => exact Nat.succ_le_succ (hfound.first front' w' rest' (List.cons.inj heq).2 hw')

end Regex
end Fusions.Library
