import Mathlib.Algebra.Group.Nat.Defs
import Fusions.Library.Pieces
import Fusions.Library.Utf8

/-! Bytes read as UTF-8, with a replacement character for each part that is none. -/
namespace Fusions.Library.LossyUtf8

/-- U+FFFD. -/
def replacement : Char := Char.ofNat 0xFFFD

/-- A character begun: how many bytes follow the next one, the range of the next one, and the bits so far.
It is none of the characters of one byte. -/
structure Begun where
  owed : Nat
  low : UInt8
  high : UInt8
  bits : Nat
  low_ge : 128 ≤ low.toNat
  high_lt : high.toNat < 192
  bits_ge : 128 ≤ (bits * 64 + low.toNat % 64) * 64 ^ owed

/-- The first byte of a character of two bytes or more. -/
def begin? (b : UInt8) : Option Begun :=
  if h : 0xC2 ≤ b.toNat ∧ b.toNat ≤ 0xDF then
    some ⟨0, 0x80, 0xBF, b.toNat % 32, by decide, by decide, by
      have hlow : (0x80 : UInt8).toNat = 128 := rfl
      omega⟩
  else if b = 0xE0 then some ⟨1, 0xA0, 0xBF, 0, by decide, by decide, by decide⟩
  else if b = 0xED then some ⟨1, 0x80, 0x9F, 13, by decide, by decide, by decide⟩
  else if h : 0xE1 ≤ b.toNat ∧ b.toNat ≤ 0xEF then
    some ⟨1, 0x80, 0xBF, b.toNat % 16, by decide, by decide, by
      have hlow : (0x80 : UInt8).toNat = 128 := rfl
      omega⟩
  else if b = 0xF0 then some ⟨2, 0x90, 0xBF, 0, by decide, by decide, by decide⟩
  else if h : 0xF1 ≤ b.toNat ∧ b.toNat ≤ 0xF3 then
    some ⟨2, 0x80, 0xBF, b.toNat % 8, by decide, by decide, by
      have hlow : (0x80 : UInt8).toNat = 128 := rfl
      omega⟩
  else if b = 0xF4 then some ⟨2, 0x80, 0x8F, 4, by decide, by decide, by decide⟩
  else none

/-- A byte between characters: what is read, and the character it begins. -/
def first (b : UInt8) : List Char × Option Begun :=
  if b.toNat < 128 then ([Char.ofNat b.toNat], none)
  else
    match begin? b with
    | some begun => ([], some begun)
    | none => ([replacement], none)

/-- The next byte of a character. -/
def Begun.next (begun : Begun) (b : UInt8) (h : begun.low.toNat ≤ b.toNat ∧ b.toNat ≤ begun.high.toNat) :
    List Char × Option Begun :=
  let bits := begun.bits * 64 + b.toNat % 64
  match howed : begun.owed with
  | 0 => ([Char.ofNat bits], none)
  | owed + 1 =>
    ([], some ⟨owed, 0x80, 0xBF, bits, by decide, by decide, by
      have hbits := begun.bits_ge
      have hlow := begun.low_ge
      have hhigh := begun.high_lt
      have hle : begun.bits * 64 + begun.low.toNat % 64 ≤ bits := by omega
      rw [howed, Nat.pow_succ', ← Nat.mul_assoc] at hbits
      exact Nat.le_trans hbits (Nat.mul_le_mul_right _ (by omega))⟩)

/-- A byte that does not go on with the character begun is read anew. -/
def step : Option Begun → UInt8 → List Char × Option Begun
  | none, b => first b
  | some begun, b =>
    if h : begun.low.toNat ≤ b.toNat ∧ b.toNat ≤ begun.high.toNat then begun.next b h
    else (replacement :: (first b).1, (first b).2)

/-- What stands for a character that is not ended. -/
def closing : Option Begun → List Char
  | none => []
  | some _ => [replacement]

def decodeFrom : Option Begun → List UInt8 → List Char
  | begun, [] => closing begun
  | begun, b :: bytes => (step begun b).1 ++ decodeFrom (step begun b).2 bytes

/-- `String::from_utf8_lossy`. -/
def fromUtf8Lossy (bytes : List UInt8) : List Char := decodeFrom none bytes

theorem decodeFrom_cons (begun : Option Begun) (b : UInt8) (bytes : List UInt8) :
    decodeFrom begun (b :: bytes) = (step begun b).1 ++ decodeFrom (step begun b).2 bytes := rfl

theorem step_ascii (begun : Option Begun) {b : UInt8} (h : b.toNat < 128) :
    step begun b = (closing begun ++ [Char.ofNat b.toNat], none) := by
  have hfirst : first b = ([Char.ofNat b.toNat], none) := if_pos h
  cases begun with
  | none => exact hfirst
  | some begun =>
    have hout : ¬(begun.low.toNat ≤ b.toNat ∧ b.toNat ≤ begun.high.toNat) := by
      have := begun.low_ge
      omega
    rw [step, dif_neg hout, hfirst]
    rfl

/-- A byte below 128 ends what is before it. -/
theorem decodeFrom_cut (begun : Option Begun) (u v : List UInt8) {b : UInt8} (h : b.toNat < 128) :
    decodeFrom begun (u ++ b :: v) = decodeFrom begun u ++ Char.ofNat b.toNat :: decodeFrom none v := by
  induction u generalizing begun with
  | nil => rw [List.nil_append, decodeFrom_cons, step_ascii begun h, List.append_assoc]; rfl
  | cons x u ih => rw [List.cons_append, decodeFrom_cons, ih, decodeFrom_cons, List.append_assoc]

theorem fromUtf8Lossy_cut (u v : List UInt8) {b : UInt8} (h : b.toNat < 128) :
    fromUtf8Lossy (u ++ b :: v) = fromUtf8Lossy u ++ Char.ofNat b.toNat :: fromUtf8Lossy v :=
  decodeFrom_cut none u v h

theorem fromUtf8Lossy_ascii {bytes : List UInt8} (h : ∀ b ∈ bytes, b.toNat < 128) :
    fromUtf8Lossy bytes = bytes.map fun b => Char.ofNat b.toNat := by
  induction bytes with
  | nil => rfl
  | cons b bytes ih =>
    obtain ⟨hb, hbytes⟩ := List.forall_mem_cons.1 h
    have hcut := fromUtf8Lossy_cut [] bytes hb
    rw [ih hbytes] at hcut
    exact hcut

theorem Begun.mem_next {begun : Begun} {b : UInt8}
    {h : begun.low.toNat ≤ b.toNat ∧ b.toNat ≤ begun.high.toNat} {c : Char} (hc : c ∈ (begun.next b h).1) :
    ∃ n : Nat, 128 ≤ n ∧ c = Char.ofNat n := by
  have hbits := begun.bits_ge
  have hlow := begun.low_ge
  have hhigh := begun.high_lt
  rw [Begun.next] at hc
  split at hc
  · next howed =>
    rw [howed, Nat.pow_zero, Nat.mul_one] at hbits
    exact ⟨_, by omega, List.mem_singleton.1 hc⟩
  · exact absurd hc List.not_mem_nil

/-- A character read is the replacement, the byte's own, or one of several bytes. -/
theorem mem_step {begun : Option Begun} {b : UInt8} {c : Char} (hc : c ∈ (step begun b).1) :
    c = replacement ∨ c = Char.ofNat b.toNat ∨ ∃ n : Nat, 128 ≤ n ∧ c = Char.ofNat n := by
  have hfirst (hc : c ∈ (first b).1) : c = replacement ∨ c = Char.ofNat b.toNat := by
    rw [first] at hc
    split at hc
    · exact .inr (List.mem_singleton.1 hc)
    · split at hc
      · exact absurd hc List.not_mem_nil
      · exact .inl (List.mem_singleton.1 hc)
  have hin (h : c = replacement ∨ c = Char.ofNat b.toNat) :
      c = replacement ∨ c = Char.ofNat b.toNat ∨ ∃ n : Nat, 128 ≤ n ∧ c = Char.ofNat n :=
    h.imp_right Or.inl
  cases begun with
  | none => exact hin (hfirst hc)
  | some begun =>
    rw [step] at hc
    split at hc
    · exact .inr (.inr (Begun.mem_next hc))
    · rcases List.mem_cons.1 hc with rfl | hc
      · exact .inl rfl
      · exact hin (hfirst hc)

theorem ofNat_ne_newline {n : Nat} (h : n ≠ 10) : Char.ofNat n ≠ '\n' := by
  intro heq
  by_cases hvalid : n.isValidChar
  · rw [Char.ofNat, dif_pos hvalid] at heq
    exact h (congrArg Char.toNat heq)
  · rw [Char.ofNat, dif_neg hvalid] at heq
    exact absurd heq (by decide)

theorem newline_not_mem_decodeFrom (begun : Option Begun) {bytes : List UInt8} (h : 10 ∉ bytes) :
    '\n' ∉ decodeFrom begun bytes := by
  induction bytes generalizing begun with
  | nil =>
    cases begun with
    | none => exact List.not_mem_nil
    | some begun =>
      show '\n' ∉ [replacement]
      decide
  | cons b bytes ih =>
    rw [List.mem_cons, not_or] at h
    obtain ⟨hb, hbytes⟩ := h
    have hbyte : b.toNat ≠ 10 := fun heq => hb (UInt8.toNat_inj.1 heq).symm
    rw [decodeFrom_cons, List.mem_append, not_or]
    refine ⟨fun hc => ?_, ih _ hbytes⟩
    obtain hreplacement | hown | ⟨n, hn, hseveral⟩ := mem_step hc
    · exact absurd hreplacement (by decide)
    · exact ofNat_ne_newline hbyte hown.symm
    · exact ofNat_ne_newline (by omega) hseveral.symm

/-- The reading starts anew at each newline, and only the byte of a newline is read as one. -/
theorem cutAt_newline : CutAt fromUtf8Lossy 10 '\n' where
  nil := rfl
  cut u v := fromUtf8Lossy_cut u v (by decide)
  clean _ h := newline_not_mem_decodeFrom none h

/-- Text of single bytes is read alike in all pieces. -/
theorem readInPieces_ascii {bytes : List UInt8} (h : ∀ b ∈ bytes, b.toNat < 128) {text : List Char} :
    ReadInPieces fromUtf8Lossy bytes text ↔ text = fromUtf8Lossy bytes := by
  rw [fromUtf8Lossy_ascii h]
  exact readInPieces_map fun u hu => fromUtf8Lossy_ascii fun b hb => h b (hu hb)

theorem forall₂_readInPieces_ascii {parts : List (List UInt8)} {texts : List (List Char)}
    (h : List.Forall₂ (ReadInPieces fromUtf8Lossy) parts texts) (hparts : ∀ part ∈ parts, ∀ b ∈ part, b.toNat < 128) :
    texts = parts.map fromUtf8Lossy := by
  induction h with
  | nil => rfl
  | cons hpart _ ih =>
    rw [List.forall_mem_cons] at hparts
    rw [List.map_cons, (readInPieces_ascii hparts.1).1 hpart, ih hparts.2]

end Fusions.Library.LossyUtf8
