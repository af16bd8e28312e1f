import Mathlib.Data.List.Basic

/-! Hexadecimal digits and percent-encoding, over bytes. -/
namespace Fusions.Library

/-- The value of a hexadecimal digit of either case. -/
def hexValue (b : UInt8) : Option UInt8 :=
  if 48 ≤ b ∧ b ≤ 57 then some (b - 48)
  else if 65 ≤ b ∧ b ≤ 70 then some (b - 55)
  else if 97 ≤ b ∧ b ≤ 102 then some (b - 87)
  else none

def hexUpper (n : UInt8) : UInt8 := if n < 10 then 48 + n else 55 + n

/-- What holds of the 256 bytes holds of every byte. -/
theorem forall_byte {P : UInt8 → Prop} (h : ∀ n : Nat, n < 256 → P (UInt8.ofNat n)) (b : UInt8) : P b := by
  have hn := h b.toNat b.toNat_lt
  rwa [UInt8.ofNat_toNat] at hn

/-- What holds of the numerals of a digit holds below 16. -/
theorem forall_digit {P : UInt8 → Prop} (h : ∀ n : Nat, n < 16 → P (UInt8.ofNat n)) {d : UInt8} (hd : d < 16) :
    P d := by
  have hn := h d.toNat (UInt8.lt_iff_toNat_lt.1 hd)
  rwa [UInt8.ofNat_toNat] at hn

theorem hexValue_hexUpper {d : UInt8} (hd : d < 16) : hexValue (hexUpper d) = some d :=
  forall_digit (P := fun d => hexValue (hexUpper d) = some d) (by decide) hd

theorem high_lt (b : UInt8) : b / 16 < 16 := by
  rw [UInt8.lt_iff_toNat_lt, UInt8.toNat_div, show (16 : UInt8).toNat = 16 from rfl]
  have := b.toNat_lt
  omega

theorem low_lt (b : UInt8) : b % 16 < 16 := by
  rw [UInt8.lt_iff_toNat_lt, UInt8.toNat_mod, show (16 : UInt8).toNat = 16 from rfl]
  omega

/-- A byte is put together from its digits. -/
theorem digits_eq (b : UInt8) : b / 16 * 16 + b % 16 = b := by
  apply UInt8.toNat_inj.1
  have := b.toNat_lt
  rw [UInt8.toNat_add, UInt8.toNat_mul, UInt8.toNat_div, UInt8.toNat_mod, show (16 : UInt8).toNat = 16 from rfl]
  omega

theorem lt_of_hexValue {b d : UInt8} (h : hexValue b = some d) : b < 128 := by
  unfold hexValue at h
  split at h
  · next hb => exact UInt8.lt_of_le_of_lt hb.2 (by decide)
  · split at h
    · next hb => exact UInt8.lt_of_le_of_lt hb.2 (by decide)
    · split at h
      · next hb => exact UInt8.lt_of_le_of_lt hb.2 (by decide)
      · cases h

/-- Two digits a byte, as in `hex::decode`. -/
def hexDecode : List UInt8 → Option (List UInt8)
  | [] => some []
  | [_] => none
  | h :: l :: rest =>
    match hexValue h, hexValue l, hexDecode rest with
    | some high, some low, some bytes => some ((high * 16 + low) :: bytes)
    | _, _, _ => none

/-- Digits of any kind that have the values of the digits of a byte. -/
theorem hexDecode_flatMap {high low : UInt8 → UInt8} (hhigh : ∀ b, hexValue (high b) = some (b / 16))
    (hlow : ∀ b, hexValue (low b) = some (b % 16)) (bytes : List UInt8) :
    hexDecode (bytes.flatMap fun b => [high b, low b]) = some bytes := by
  induction bytes with
  | nil => rfl
  | cons b bytes ih => simp [hexDecode, hhigh, hlow, ih, digits_eq]

def percent : UInt8 := 37

def percentTriplet (b : UInt8) : List UInt8 := [percent, hexUpper (b / 16), hexUpper (b % 16)]

/-- The bytes that are not kept as they are become triplets. -/
def percentEncode (keep : UInt8 → Bool) (bytes : List UInt8) : List UInt8 :=
  bytes.flatMap fun b => if keep b then [b] else percentTriplet b

/-- A percent sign and two digits come first. -/
def startsTriplet : List UInt8 → Bool
  | b :: h :: l :: _ => b == percent && (hexValue h).isSome && (hexValue l).isSome
  | _ => false

theorem startsTriplet_of_ne {b : UInt8} (h : b ≠ percent) (bytes : List UInt8) :
    startsTriplet (b :: bytes) = false := by
  match bytes with
  | [] | [_] => rfl
  | _ :: _ :: _ => simp [startsTriplet, h]

theorem ne_of_keep {keep : UInt8 → Bool} (hkeep : keep percent = false) {b : UInt8} (hb : keep b = true) :
    b ≠ percent := by
  rintro rfl
  simp [hkeep] at hb

/-- From left to right. A percent sign that begins no triplet stands for itself. -/
def percentDecode : List UInt8 → List UInt8
  | [] => []
  | [b] => [b]
  | [b, c] => [b, c]
  | b :: h :: l :: rest =>
    if b = percent then
      match hexValue h, hexValue l with
      | some high, some low => (high * 16 + low) :: percentDecode rest
      | _, _ => b :: percentDecode (h :: l :: rest)
    else b :: percentDecode (h :: l :: rest)

theorem percentDecode_of_digits {h l high low : UInt8} (hh : hexValue h = some high) (hl : hexValue l = some low)
    (rest : List UInt8) : percentDecode (percent :: h :: l :: rest) = (high * 16 + low) :: percentDecode rest := by
  simp [percentDecode, hh, hl]

theorem percentDecode_cons {b : UInt8} {bytes : List UInt8} (h : startsTriplet (b :: bytes) = false) :
    percentDecode (b :: bytes) = b :: percentDecode bytes := by
  match bytes with
  | [] => rfl
  | [c] => rfl
  | h' :: l :: rest =>
    by_cases hb : b = percent
    · subst hb
      cases hh : hexValue h' <;> cases hl : hexValue l <;> simp_all [percentDecode, startsTriplet]
    · simp [percentDecode, hb]

theorem percentDecode_cons_of_ne {b : UInt8} (h : b ≠ percent) (bytes : List UInt8) :
    percentDecode (b :: bytes) = b :: percentDecode bytes :=
  percentDecode_cons (startsTriplet_of_ne h bytes)

theorem percentDecode_triplet (b : UInt8) (rest : List UInt8) :
    percentDecode (percentTriplet b ++ rest) = b :: percentDecode rest := by
  rw [percentTriplet, List.cons_append, List.cons_append, List.cons_append, List.nil_append,
    percentDecode_of_digits (hexValue_hexUpper (high_lt b)) (hexValue_hexUpper (low_lt b)), digits_eq]

/-- What is encoded reads back, before any rest. -/
theorem percentDecode_percentEncode_append {keep : UInt8 → Bool} (hkeep : keep percent = false)
    (bytes rest : List UInt8) :
    percentDecode (percentEncode keep bytes ++ rest) = bytes ++ percentDecode rest := by
  induction bytes with
  | nil => rfl
  | cons b bytes ih =>
    rw [percentEncode, List.flatMap_cons, List.append_assoc, ← percentEncode, List.cons_append]
    split
    · next hb => rw [List.singleton_append, percentDecode_cons_of_ne (ne_of_keep hkeep hb), ih]
    · rw [percentDecode_triplet, ih]

theorem percentDecode_percentEncode {keep : UInt8 → Bool} (hkeep : keep percent = false) (bytes : List UInt8) :
    percentDecode (percentEncode keep bytes) = bytes := by
  simpa [percentDecode] using percentDecode_percentEncode_append hkeep bytes []

/-- Every percent sign begins a triplet. -/
def wellEscaped : List UInt8 → Bool
  | [] => true
  | b :: bytes => (b != percent || startsTriplet (b :: bytes)) && wellEscaped bytes

theorem hexUpper_ne {d : UInt8} (hd : d < 16) : hexUpper d ≠ percent :=
  forall_digit (P := fun d => hexUpper d ≠ percent) (by decide) hd

theorem startsTriplet_triplet (b : UInt8) (rest : List UInt8) : startsTriplet (percentTriplet b ++ rest) = true := by
  simp [percentTriplet, startsTriplet, hexValue_hexUpper (high_lt b), hexValue_hexUpper (low_lt b)]

theorem wellEscaped_percentEncode {keep : UInt8 → Bool} (hkeep : keep percent = false) (bytes : List UInt8) :
    wellEscaped (percentEncode keep bytes) = true := by
  induction bytes with
  | nil => rfl
  | cons b bytes ih =>
    rw [percentEncode, List.flatMap_cons, ← percentEncode]
    split
    · next hb => simp [wellEscaped, ne_of_keep hkeep hb, ih]
    · have hfirst := startsTriplet_triplet b (percentEncode keep bytes)
      simp only [percentTriplet, List.cons_append, List.nil_append] at hfirst ⊢
      simp [wellEscaped, hfirst, hexUpper_ne (high_lt b), hexUpper_ne (low_lt b), ih]

/-- What holds of the kept bytes, of the percent sign and of the digits holds of all that is written. -/
theorem percentEncode_all {keep p : UInt8 → Bool} (hkeep : ∀ b, keep b = true → p b = true)
    (hpercent : p percent = true) (hdigit : ∀ d, d < 16 → p (hexUpper d) = true) (bytes : List UInt8) :
    ∀ b ∈ percentEncode keep bytes, p b = true := by
  intro b hb
  obtain ⟨c, -, hmem⟩ := List.mem_flatMap.1 hb
  split at hmem
  · next hc =>
    obtain rfl := List.mem_singleton.1 hmem
    exact hkeep b hc
  · simp only [percentTriplet, List.mem_cons, List.not_mem_nil, or_false] at hmem
    rcases hmem with rfl | rfl | rfl
    · exact hpercent
    · exact hdigit _ (high_lt c)
    · exact hdigit _ (low_lt c)

theorem length_percentEncode (keep : UInt8 → Bool) (bytes : List UInt8) :
    (percentEncode keep bytes).length = bytes.length + 2 * (bytes.filter fun b => !keep b).length := by
  induction bytes with
  | nil => rfl
  | cons b bytes ih =>
    rw [percentEncode, List.flatMap_cons, ← percentEncode, List.length_append, ih, List.filter_cons]
    cases keep b <;> simp [percentTriplet] <;> omega

/-- Only what is kept throughout is encoded as itself. -/
theorem percentEncode_eq_self {keep : UInt8 → Bool} {bytes : List UInt8} :
    percentEncode keep bytes = bytes ↔ ∀ b ∈ bytes, keep b = true := by
  constructor
  · intro h
    have hlength := length_percentEncode keep bytes
    rw [h] at hlength
    have hnone : bytes.filter (fun b => !keep b) = [] := List.length_eq_zero_iff.1 (by omega)
    simpa [List.filter_eq_nil_iff] using hnone
  · intro h
    induction bytes with
    | nil => rfl
    | cons b bytes ih =>
      obtain ⟨hb, hbytes⟩ := List.forall_mem_cons.1 h
      rw [percentEncode, List.flatMap_cons, ← percentEncode, ih hbytes, if_pos hb, List.singleton_append]

/-! Escaping what is not escaped yet. -/

/-- Bytes begin with a triplet, or with a byte that begins none. -/
@[elab_as_elim]
theorem triplet_induction {P : List UInt8 → Prop} (nil : P [])
    (cons : ∀ b bytes, startsTriplet (b :: bytes) = false → P bytes → P (b :: bytes))
    (triplet : ∀ h l high low rest, hexValue h = some high → hexValue l = some low → P rest →
      P (percent :: h :: l :: rest)) (bytes : List UInt8) : P bytes := by
  match bytes with
  | [] => exact nil
  | [b] => exact cons b [] rfl nil
  | [b, c] => exact cons b [c] rfl (cons c [] rfl nil)
  | b :: h :: l :: rest =>
    by_cases hb : b = percent
    · cases hh : hexValue h with
      | none => exact cons b _ (by simp [startsTriplet, hh]) (triplet_induction nil cons triplet (h :: l :: rest))
      | some high =>
        cases hl : hexValue l with
        | none => exact cons b _ (by simp [startsTriplet, hl]) (triplet_induction nil cons triplet (h :: l :: rest))
        | some low =>
          subst hb
          exact triplet h l high low rest hh hl (triplet_induction nil cons triplet rest)
    · exact cons b _ (by simp [startsTriplet, hb]) (triplet_induction nil cons triplet (h :: l :: rest))

def escapeByte (keep : UInt8 → Bool) (b : UInt8) : List UInt8 := if keep b then [b] else percentTriplet b

/-- Triplets stay, and the other bytes that are not kept become triplets. -/
def escapeRest (keep : UInt8 → Bool) : List UInt8 → List UInt8
  | [] => []
  | [b] => escapeByte keep b
  | [b, c] => escapeByte keep b ++ escapeByte keep c
  | b :: h :: l :: rest =>
    if startsTriplet (b :: h :: l :: rest) then b :: h :: l :: escapeRest keep rest
    else escapeByte keep b ++ escapeRest keep (h :: l :: rest)

section
variable {keep : UInt8 → Bool}

theorem escapeRest_cons {b : UInt8} {bytes : List UInt8} (h : startsTriplet (b :: bytes) = false) :
    escapeRest keep (b :: bytes) = escapeByte keep b ++ escapeRest keep bytes := by
  match bytes with
  | [] => simp [escapeRest]
  | [c] => rfl
  | h' :: l :: rest => simp [escapeRest, h]

theorem escapeRest_triplet {h l high low : UInt8} (hh : hexValue h = some high) (hl : hexValue l = some low)
    (rest : List UInt8) : escapeRest keep (percent :: h :: l :: rest) = percent :: h :: l :: escapeRest keep rest := by
  simp [escapeRest, startsTriplet, hh, hl]

theorem escapeRest_eq_nil {bytes : List UInt8} (h : escapeRest keep bytes = []) : bytes = [] := by
  induction bytes using triplet_induction with
  | nil => rfl
  | cons b bytes hb =>
    rw [escapeRest_cons hb, escapeByte] at h
    split at h <;> cases h
  | triplet h' l high low rest hh hl =>
    rw [escapeRest_triplet hh hl] at h
    cases h

theorem percentDecode_escapeRest (hkeep : keep percent = false) (bytes : List UInt8) :
    percentDecode (escapeRest keep bytes) = percentDecode bytes := by
  induction bytes using triplet_induction with
  | nil => rfl
  | cons b bytes hb ih =>
    rw [escapeRest_cons hb, percentDecode_cons hb, escapeByte]
    split
    · next hkept => rw [List.singleton_append, percentDecode_cons_of_ne (ne_of_keep hkeep hkept), ih]
    · rw [percentDecode_triplet, ih]
  | triplet h l high low rest hh hl ih =>
    rw [escapeRest_triplet hh hl, percentDecode_of_digits hh hl, percentDecode_of_digits hh hl, ih]

theorem escapeRest_escapeRest (hkeep : keep percent = false) (bytes : List UInt8) :
    escapeRest keep (escapeRest keep bytes) = escapeRest keep bytes := by
  induction bytes using triplet_induction with
  | nil => rfl
  | cons b bytes hb ih =>
    rw [escapeRest_cons hb, escapeByte]
    split
    · next hkept =>
      rw [List.singleton_append, escapeRest_cons (startsTriplet_of_ne (ne_of_keep hkeep hkept) _), ih, escapeByte,
        if_pos hkept, List.singleton_append]
    · rw [percentTriplet, List.cons_append, List.cons_append, List.cons_append, List.nil_append,
        escapeRest_triplet (hexValue_hexUpper (high_lt b)) (hexValue_hexUpper (low_lt b)), ih]
  | triplet h l high low rest hh hl ih => rw [escapeRest_triplet hh hl, escapeRest_triplet hh hl, ih]

/-- A byte that is no part of a triplet separates what is before it from what is after it. -/
theorem escapeRest_append {b : UInt8} (hb : b ≠ percent) (hdigit : hexValue b = none) (hkept : keep b = true)
    (u v : List UInt8) : escapeRest keep (u ++ b :: v) = escapeRest keep u ++ b :: escapeRest keep v := by
  have hstop : escapeRest keep (b :: v) = b :: escapeRest keep v := by
    rw [escapeRest_cons (startsTriplet_of_ne hb v), escapeByte, if_pos hkept, List.singleton_append]
  induction u using triplet_induction with
  | nil => exact hstop
  | cons c u hc ih =>
    have hc' : startsTriplet (c :: (u ++ b :: v)) = false := by
      match u with
      | [] => cases v <;> simp [startsTriplet, hdigit]
      | [d] => simp [startsTriplet, hdigit]
      | h :: l :: rest => simpa [startsTriplet] using hc
    rw [List.cons_append, escapeRest_cons hc', ih, escapeRest_cons hc, List.append_assoc]
  | triplet h l high low rest hh hl ih =>
    simp only [List.cons_append]
    rw [escapeRest_triplet hh hl, escapeRest_triplet hh hl, ih]
    rfl

/-- Bytes that are kept, and triplets. -/
inductive Escaped (keep : UInt8 → Bool) : List UInt8 → Prop where
  | nil : Escaped keep []
  | kept {b : UInt8} {bytes : List UInt8} : keep b = true → Escaped keep bytes → Escaped keep (b :: bytes)
  | triplet {h l : UInt8} {bytes : List UInt8} : (hexValue h).isSome = true → (hexValue l).isSome = true →
      Escaped keep bytes → Escaped keep (percent :: h :: l :: bytes)

theorem escaped_escapeRest (bytes : List UInt8) : Escaped keep (escapeRest keep bytes) := by
  induction bytes using triplet_induction with
  | nil => exact .nil
  | cons b bytes hb ih =>
    rw [escapeRest_cons hb, escapeByte]
    split
    · next hkept => exact .kept hkept ih
    · exact .triplet (by simp [hexValue_hexUpper (high_lt b)]) (by simp [hexValue_hexUpper (low_lt b)]) ih
  | triplet h l high low rest hh hl ih =>
    rw [escapeRest_triplet hh hl]
    exact .triplet (by simp [hh]) (by simp [hl]) ih

/-- The bytes of escaped text. -/
theorem Escaped.all {bytes : List UInt8} (h : Escaped keep bytes) :
    ∀ b ∈ bytes, keep b = true ∨ b = percent ∨ (hexValue b).isSome = true := by
  induction h with
  | nil => exact nofun
  | kept hb _ ih => exact List.forall_mem_cons.2 ⟨.inl hb, ih⟩
  | triplet hh hl _ ih =>
    exact List.forall_mem_cons.2 ⟨.inr (.inl rfl), List.forall_mem_cons.2 ⟨.inr (.inr hh),
      List.forall_mem_cons.2 ⟨.inr (.inr hl), ih⟩⟩⟩

theorem escapeRest_congr {keep' : UInt8 → Bool} {bytes : List UInt8} (h : ∀ b ∈ bytes, keep b = keep' b) :
    escapeRest keep bytes = escapeRest keep' bytes := by
  induction bytes using triplet_induction with
  | nil => rfl
  | cons b bytes hb ih =>
    obtain ⟨hkeep, hrest⟩ := List.forall_mem_cons.1 h
    rw [escapeRest_cons hb, escapeRest_cons hb, ih hrest, escapeByte, escapeByte, hkeep]
  | triplet h' l high low rest hh hl ih =>
    rw [escapeRest_triplet hh hl, escapeRest_triplet hh hl,
      ih fun b hb => h b (List.mem_cons_of_mem _ (List.mem_cons_of_mem _ (List.mem_cons_of_mem _ hb)))]

end

end Fusions.Library
