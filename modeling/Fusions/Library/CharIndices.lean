import Fusions.Library.Find

/-! The characters of a text with the bytes where they stand, and slices between these. -/
namespace Fusions.Library

/-- `str::char_indices`, from a byte on. -/
def charIndices (byte : Nat) : List Char → List (Nat × Char)
  | [] => []
  | c :: cs => (byte, c) :: charIndices (byte + c.utf8Size) cs

/-- `&s[start..stop]`. Without a value it panics. -/
def slice (s : List Char) (start stop : Nat) : Option (List Char) := (takeBytes s stop).bind (dropBytes · start)

/-- `Iterator::rposition` of a slice. -/
def rposition {α : Type} (p : α → Bool) : List α → Option Nat
  | [] => none
  | a :: l => ((rposition p l).map (· + 1)).or (if p a then some 0 else none)

/-- A part that ends at the last of its kind. -/
inductive EndsAtLast {α : Type} (p : α → Bool) : (whole part : List α) → Prop where
  | mk (front : List α) {back : List α} {a : α} (ha : p a = true) (hback : ∀ b ∈ back, p b = false) :
      EndsAtLast p (front ++ a :: back) (front ++ [a])

theorem charIndices_append (byte : Nat) (front rest : List Char) :
    charIndices byte (front ++ rest) = charIndices byte front ++ charIndices (byte + byteLength front) rest := by
  induction front generalizing byte with
  | nil => rfl
  | cons c front ih =>
    rw [List.cons_append, charIndices, charIndices, ih, byteLength, Nat.add_assoc]
    rfl

@[simp] theorem length_charIndices (byte : Nat) (s : List Char) : (charIndices byte s).length = s.length := by
  induction s generalizing byte with
  | nil => rfl
  | cons c s ih => rw [charIndices, List.length_cons, ih, List.length_cons]

theorem map_snd_charIndices (byte : Nat) (s : List Char) : (charIndices byte s).map Prod.snd = s := by
  induction s generalizing byte with
  | nil => rfl
  | cons c s ih => rw [charIndices, List.map_cons, ih]

/-- Where the text goes on behind a front. -/
theorem charIndices_get? (front rest : List Char) :
    (charIndices 0 (front ++ rest))[front.length]?.map Prod.fst = rest.head?.map fun _ => byteLength front := by
  rw [charIndices_append, List.getElem?_append_right (by rw [length_charIndices]), length_charIndices, Nat.sub_self,
    Nat.zero_add]
  cases rest <;> rfl

theorem drop_charIndices (front rest : List Char) :
    (charIndices 0 (front ++ rest)).drop front.length = charIndices (byteLength front) rest := by
  rw [charIndices_append, ← length_charIndices 0 front, List.drop_left, Nat.zero_add]

theorem slice_byteLength (front part rest : List Char) :
    slice (front ++ part ++ rest) (byteLength front) (byteLength (front ++ part)) = some part := by
  rw [slice, takeBytes_byteLength]
  exact dropBytes_byteLength front part

theorem rposition_map {α β : Type} (p : β → Bool) (f : α → β) (l : List α) :
    rposition p (l.map f) = rposition (p ∘ f) l := by
  induction l with
  | nil => rfl
  | cons a l ih => rw [List.map_cons, rposition, rposition, ih]; rfl

theorem EndsAtLast.length_le {α : Type} {p : α → Bool} {whole part : List α} (h : EndsAtLast p whole part) :
    part.length ≤ whole.length := by
  obtain ⟨front, ha, hback⟩ := h
  rw [List.length_append, List.length_append]
  exact Nat.add_le_add_left (Nat.le_add_left 1 _) _

/-- There is none of the kind, or the part up to the last one. -/
theorem rposition_cases {α : Type} (p : α → Bool) (l : List α) :
    (rposition p l = none ∧ ∀ a ∈ l, p a = false) ∨
      ∃ i part, rposition p l = some i ∧ part.length = i + 1 ∧ part <+: l ∧ EndsAtLast p l part := by
  induction l with
  | nil => exact .inl ⟨rfl, nofun⟩
  | cons a l ih =>
    rw [rposition]
    rcases ih with ⟨hnone, hall⟩ | ⟨i, part, hsome, hlength, hprefix, hlast⟩
    · rw [hnone, Option.map_none, Option.none_or]
      by_cases ha : p a = true
      · exact .inr ⟨0, [a], if_pos ha, rfl, List.prefix_append [a] l, .mk [] ha hall⟩
      · rw [Bool.not_eq_true] at ha
        rw [if_neg (by simp [ha])]
        refine .inl ⟨rfl, fun b hb => ?_⟩
        rcases List.mem_cons.1 hb with rfl | hb
        · exact ha
        · exact hall b hb
    · refine .inr ⟨i + 1, a :: part, by rw [hsome]; rfl, by rw [List.length_cons, hlength],
        (List.prefix_cons_inj a).2 hprefix, ?_⟩
      obtain ⟨front, hb, hback⟩ := hlast
      exact .mk (a :: front) hb hback

end Fusions.Library
