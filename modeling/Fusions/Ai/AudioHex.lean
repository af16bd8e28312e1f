import Fusions.Library.Find
import Fusions.Library.Percent
import Fusions.Library.Trim
import Fusions.Library.Utf8

/-! The hexadecimal texts of audio. -/
namespace Fusions.Ai
open Fusions.Library

/-- A digit of `{:02x}`. -/
def lowerHex (n : Nat) : Char := if n < 10 then Char.ofNat (48 + n) else Char.ofNat (87 + n)

def encodeHex (bytes : List UInt8) : String :=
  String.ofList (bytes.flatMap fun b => [lowerHex (b.toNat / 16), lowerHex (b.toNat % 16)])

/-- `char::to_digit(16)`. -/
def toDigit (c : Char) : Option Nat :=
  if c.toNat < 128 then (hexValue c.toUInt8).map UInt8.toNat else none

/-- The digits of a number of `u8`, none where it overflows. -/
def readDigits (acc : Nat) : List Char → Option Nat
  | [] => some acc
  | c :: digits =>
    match toDigit c with
    | some digit => if acc * 16 + digit < 256 then readDigits (acc * 16 + digit) digits else none
    | none => none

/-- `u8::from_str_radix` with 16: a plus may lead the digits. -/
def fromStrRadix (src : List Char) : Option UInt8 :=
  match src with
  | [] | ['+'] | ['-'] => none
  | '+' :: digits => (readDigits 0 digits).map UInt8.ofNat
  | digits => (readDigits 0 digits).map UInt8.ofNat

/-- `hex.get(i..i + 2)`. -/
def pairAt (hex : List Char) (i : Nat) : Option (List Char) := (dropBytes hex i).bind (takeBytes · 2)

/-- The pairs from `i` on. -/
def decodeFrom (hex : List Char) (i : Nat) : Option (List UInt8) :=
  if i < byteLength hex then do
    let b ← (pairAt hex i).bind fromStrRadix
    let bytes ← decodeFrom hex (i + 2)
    return b :: bytes
  else some []
  termination_by byteLength hex - i

def decodeHex (hex : String) : Option (List UInt8) :=
  let hex := (trim hex).toList
  if byteLength hex % 2 ≠ 0 then none else decodeFrom hex 0

def IsHexDigit (c : Char) : Prop := (toDigit c).isSome = true

/-- The text is that of the bytes, in letters of either case. -/
def Spells (text : List Char) (bytes : List UInt8) : Prop := text.map Char.toLower = (encodeHex bytes).toList

/-- What `hex` is decoded as. -/
structure DecodesExactly (hex : String) : Prop where
  roundTrip : ∀ bytes, decodeHex (encodeHex bytes) = some bytes
  decodes : ∀ bytes, decodeHex hex = some bytes ↔ Spells (trim hex).toList bytes
  rejects : (trim hex).toList.length % 2 = 1 ∨ (∃ c ∈ (trim hex).toList, ¬ IsHexDigit c) → decodeHex hex = none

/-- Pairs that end in a digit, some of which begin with a plus and the others with a digit too. -/
def Signed (text : List Char) : Prop :=
  ∃ pairs : List (Char × Char), text = pairs.flatMap (fun p => [p.1, p.2]) ∧
    (∀ p ∈ pairs, (p.1 = '+' ∨ IsHexDigit p.1) ∧ IsHexDigit p.2) ∧ ∃ p ∈ pairs, p.1 = '+'

/-! Digits. -/

theorem toDigit_ascii {c : Char} {n : Nat} (h : toDigit c = some n) : c.toNat < 128 := by
  unfold toDigit at h
  split at h
  · assumption
  · cases h

/-- Of the 128 characters of ASCII the digits are those of either case. -/
theorem toDigit_lower {c : Char} (hc : c.toNat < 128) :
    ∀ n < 16, toDigit c = some n ↔ c.toLower = lowerHex n :=
  forall_ascii (P := fun c => ∀ n < 16, toDigit c = some n ↔ c.toLower = lowerHex n) (by decide +kernel) hc

theorem toDigit_lt {c : Char} {n : Nat} (h : toDigit c = some n) : n < 16 := by
  have hall : ∀ c : Char, c.toNat < 128 → ∀ n ∈ toDigit c, n < 16 := fun c hc =>
    forall_ascii (P := fun c => ∀ n ∈ toDigit c, n < 16) (by decide +kernel) hc
  exact hall c (toDigit_ascii h) n h

theorem lowerHex_ascii {n : Nat} (h : n < 16) : (lowerHex n).toNat < 128 := by
  revert n
  decide

theorem toLower_ascii {c : Char} (h : c.toLower.toNat < 128) : c.toNat < 128 := by
  unfold Char.toLower at h
  split at h
  · next hupper => exact Nat.lt_of_le_of_lt (UInt32.le_iff_toNat_le.1 hupper.2) (by decide)
  · exact h

/-- A digit by the letter that it is in lower case. -/
theorem toDigit_eq_some {c : Char} {n : Nat} : toDigit c = some n ↔ n < 16 ∧ c.toLower = lowerHex n := by
  constructor
  · intro h
    exact ⟨toDigit_lt h, (toDigit_lower (toDigit_ascii h) n (toDigit_lt h)).1 h⟩
  · rintro ⟨hn, hlower⟩
    have hc : c.toNat < 128 := toLower_ascii (by rw [hlower]; exact lowerHex_ascii hn)
    exact (toDigit_lower hc n hn).2 hlower

theorem toDigit_plus : toDigit '+' = none := by decide

/-! A pair of characters. -/

theorem readDigits_one (b : Char) : readDigits 0 [b] = toDigit b := by
  cases hb : toDigit b with
  | none => simp [readDigits, hb]
  | some l =>
    have hl := toDigit_lt hb
    simp only [readDigits, hb, Nat.zero_mul, Nat.zero_add]
    rw [if_pos (by omega)]

theorem readDigits_two (a b : Char) {n : Nat} : readDigits 0 [a, b] = some n ↔
    ∃ h l, toDigit a = some h ∧ toDigit b = some l ∧ n = h * 16 + l := by
  cases ha : toDigit a with
  | none => simp [readDigits, ha]
  | some h =>
    have hh := toDigit_lt ha
    cases hb : toDigit b with
    | none => simp [readDigits, ha, hb]
    | some l =>
      have hl := toDigit_lt hb
      simp only [readDigits, ha, hb, Nat.zero_mul, Nat.zero_add]
      rw [if_pos (by omega), if_pos (by omega)]
      simp [eq_comm]

/-- A pair is read as its two digits, or as the second behind a plus. -/
theorem fromStrRadix_pair {a b : Char} {x : UInt8} : fromStrRadix [a, b] = some x ↔
    ∃ l, toDigit b = some l ∧
      ((∃ h, toDigit a = some h ∧ x = UInt8.ofNat (h * 16 + l)) ∨ a = '+' ∧ x = UInt8.ofNat l) := by
  by_cases ha : a = '+'
  · subst ha
    change (readDigits 0 [b]).map UInt8.ofNat = some x ↔ _
    rw [readDigits_one, Option.map_eq_some_iff]
    simp [toDigit_plus, eq_comm]
  · have hdigits : fromStrRadix [a, b] = (readDigits 0 [a, b]).map UInt8.ofNat := by
      unfold fromStrRadix
      split <;> simp_all
    rw [hdigits, Option.map_eq_some_iff]
    simp only [readDigits_two, ha, false_and, or_false]
    constructor
    · rintro ⟨_, ⟨h, l, hh, hl, rfl⟩, rfl⟩
      exact ⟨l, hl, h, hh, rfl⟩
    · rintro ⟨l, hl, h, hh, rfl⟩
      exact ⟨_, ⟨h, l, hh, hl, rfl⟩, rfl⟩

/-- The characters of a pair that is read are of one byte each. -/
theorem fromStrRadix_ascii {a b : Char} {x : UInt8} (h : fromStrRadix [a, b] = some x) :
    a.utf8Size = 1 ∧ b.utf8Size = 1 := by
  obtain ⟨l, hl, ⟨h, hh, -⟩ | ⟨rfl, -⟩⟩ := fromStrRadix_pair.1 h
  · exact ⟨utf8Size_eq_one.2 (toDigit_ascii hh), utf8Size_eq_one.2 (toDigit_ascii hl)⟩
  · exact ⟨by decide, utf8Size_eq_one.2 (toDigit_ascii hl)⟩

theorem fromStrRadix_wider {a b : Char} (h : a.utf8Size ≠ 1 ∨ b.utf8Size ≠ 1) : fromStrRadix [a, b] = none := by
  rw [Option.eq_none_iff_forall_ne_some]
  intro x hx
  obtain ⟨ha, hb⟩ := fromStrRadix_ascii hx
  exact h.elim (absurd ha) (absurd hb)

/-- A character of two bytes is no number. -/
theorem fromStrRadix_wide {c : Char} (h : c.utf8Size = 2) : fromStrRadix [c] = none := by
  have hhigh : ¬ c.toNat < 128 := by
    rw [← utf8Size_eq_one, h]
    decide
  have hdigit : toDigit c = none := if_neg hhigh
  unfold fromStrRadix
  split
  · rfl
  · rfl
  · rfl
  · next heq => simp_all
  · rw [readDigits_one, hdigit]
    rfl

/-- What is read at a place is the pair of characters there. -/
theorem pairAt_eq (front rest : List Char) : (pairAt (front ++ rest) (byteLength front)).bind fromStrRadix =
    match rest with
    | a :: b :: _ => fromStrRadix [a, b]
    | _ => none := by
  rw [pairAt, dropBytes_byteLength, Option.bind_some]
  cases rest with
  | nil => rfl
  | cons a rest =>
    have hpos := a.utf8Size_pos
    obtain hone | htwo | hmore : a.utf8Size = 1 ∨ a.utf8Size = 2 ∨ 2 < a.utf8Size := by omega
    · rw [takeBytes, hone, if_pos (by decide)]
      cases rest with
      | nil => rfl
      | cons b rest =>
        have hpos := b.utf8Size_pos
        by_cases hb : b.utf8Size = 1
        · rw [takeBytes, hb, if_pos (by decide), takeBytes]
          rfl
        · rw [takeBytes, if_neg (by omega)]
          exact (fromStrRadix_wider (.inr hb)).symm
    · rw [takeBytes, htwo, if_pos (by decide), takeBytes, Option.map_some, Option.bind_some, fromStrRadix_wide htwo]
      cases rest with
      | nil => rfl
      | cons b rest => exact (fromStrRadix_wider (.inl (by omega))).symm
    · rw [takeBytes, if_neg (by omega)]
      cases rest with
      | nil => rfl
      | cons b rest => exact (fromStrRadix_wider (.inl (by omega))).symm

/-- What a whole text is read as, pair by pair. -/
inductive Reads : List Char → List UInt8 → Prop where
  | nil : Reads [] []
  | cons {a b : Char} {x : UInt8} {text : List Char} {bytes : List UInt8} : fromStrRadix [a, b] = some x →
      Reads text bytes → Reads (a :: b :: text) (x :: bytes)

theorem Reads.even {text : List Char} {bytes : List UInt8} (h : Reads text bytes) : byteLength text % 2 = 0 := by
  induction h with
  | nil => rfl
  | cons hpair _ ih =>
    obtain ⟨ha, hb⟩ := fromStrRadix_ascii hpair
    simp only [byteLength, ha, hb]
    omega

/-- By induction on the text: what is in front of it has been read. -/
theorem decodeFrom_iff (front rest : List Char) (bytes : List UInt8) :
    decodeFrom (front ++ rest) (byteLength front) = some bytes ↔ Reads rest bytes := by
  induction hn : rest.length using Nat.strongRecOn generalizing front rest bytes with
  | ind n ih =>
    rw [decodeFrom, byteLength_append]
    have hread := pairAt_eq front rest
    match rest with
    | [] =>
      rw [byteLength, if_neg (by omega)]
      constructor
      · intro h
        obtain rfl := Option.some.inj h
        exact .nil
      · intro h
        cases h
        rfl
    | [a] =>
      have hpos := a.utf8Size_pos
      rw [byteLength, byteLength, if_pos (by omega), hread]
      constructor
      · intro h
        cases h
      · intro h
        cases h
    | a :: b :: text =>
      have hpos := a.utf8Size_pos
      rw [byteLength, if_pos (by omega)]
      cases hpair : fromStrRadix [a, b] with
      | none =>
        rw [hread.trans hpair]
        constructor
        · intro h
          cases h
        · intro h
          cases h with
          | cons hx _ => cases hpair.symm.trans hx
      | some x =>
        rw [hread.trans hpair]
        obtain ⟨ha, hb⟩ := fromStrRadix_ascii hpair
        have hplace : byteLength front + 2 = byteLength (front ++ [a, b]) := by
          simp only [byteLength_append, byteLength, ha, hb]
        have hnext (bytes : List UInt8) :
            decodeFrom (front ++ a :: b :: text) (byteLength front + 2) = some bytes ↔ Reads text bytes := by
          rw [hplace, show front ++ a :: b :: text = (front ++ [a, b]) ++ text by simp]
          exact ih text.length (by rw [← hn, List.length_cons, List.length_cons]; omega) _ _ _ rfl
        constructor
        · intro h
          obtain ⟨_, hx, hrest⟩ := Option.bind_eq_some_iff.1 h
          obtain rfl := Option.some.inj hx
          obtain ⟨tail, htail, heq⟩ := Option.bind_eq_some_iff.1 hrest
          obtain rfl := Option.some.inj heq
          exact .cons hpair ((hnext tail).1 htail)
        · intro h
          cases h with
          | cons hx hrest =>
            obtain rfl := Option.some.inj (hpair.symm.trans hx)
            exact Option.bind_eq_some_iff.2 ⟨_, rfl, Option.bind_eq_some_iff.2 ⟨_, (hnext _).2 hrest, rfl⟩⟩

theorem decodeHex_iff {hex : String} {bytes : List UInt8} :
    decodeHex hex = some bytes ↔ Reads (trim hex).toList bytes := by
  have hwhole := decodeFrom_iff [] (trim hex).toList bytes
  rw [List.nil_append, byteLength] at hwhole
  unfold decodeHex
  dsimp only
  split
  · next hodd =>
    refine iff_of_false (fun h => ?_) fun h => hodd h.even
    cases h
  · exact hwhole

/-! Texts of digits only, and texts with a plus. -/

theorem lowerHex_notWhitespace {n : Nat} (h : n < 16) : isWhitespace (lowerHex n) = false := by
  revert n
  decide

theorem trim_encodeHex (bytes : List UInt8) : trim (encodeHex bytes) = encodeHex bytes := by
  refine trim_of_forall fun c hc => ?_
  rw [encodeHex, String.toList_ofList] at hc
  obtain ⟨b, -, hc⟩ := List.mem_flatMap.1 hc
  have hlt := b.toNat_lt
  simp only [List.mem_cons, List.not_mem_nil, or_false] at hc
  rcases hc with rfl | rfl <;> exact lowerHex_notWhitespace (by omega)

/-- The digits of a byte. -/
theorem pair_iff {a b : Char} {x : UInt8} :
    (∃ h l, toDigit a = some h ∧ toDigit b = some l ∧ x = UInt8.ofNat (h * 16 + l)) ↔
      a.toLower = lowerHex (x.toNat / 16) ∧ b.toLower = lowerHex (x.toNat % 16) := by
  have hlt := x.toNat_lt
  constructor
  · rintro ⟨h, l, ha, hb, rfl⟩
    have hh := toDigit_lt ha
    have hl := toDigit_lt hb
    have hx : (UInt8.ofNat (h * 16 + l)).toNat = h * 16 + l := by
      rw [UInt8.toNat_ofNat']
      exact Nat.mod_eq_of_lt (by omega)
    rw [hx, show (h * 16 + l) / 16 = h by omega, show (h * 16 + l) % 16 = l by omega]
    exact ⟨(toDigit_eq_some.1 ha).2, (toDigit_eq_some.1 hb).2⟩
  · rintro ⟨ha, hb⟩
    refine ⟨_, _, toDigit_eq_some.2 ⟨by omega, ha⟩, toDigit_eq_some.2 ⟨by omega, hb⟩, ?_⟩
    rw [show x.toNat / 16 * 16 + x.toNat % 16 = x.toNat by omega, UInt8.ofNat_toNat]

theorem encodeHex_cons (x : UInt8) (bytes : List UInt8) : (encodeHex (x :: bytes)).toList =
    lowerHex (x.toNat / 16) :: lowerHex (x.toNat % 16) :: (encodeHex bytes).toList := by
  simp [encodeHex]

theorem toLower_lowerHex {n : Nat} (h : n < 16) : (lowerHex n).toLower = lowerHex n := by
  revert n
  decide

theorem spells_encodeHex (bytes : List UInt8) : Spells (encodeHex bytes).toList bytes := by
  induction bytes with
  | nil => simp [Spells, encodeHex]
  | cons x bytes ih =>
    have hlt := x.toNat_lt
    unfold Spells at ih ⊢
    rw [encodeHex_cons, List.map_cons, List.map_cons, ih, toLower_lowerHex (by omega), toLower_lowerHex (by omega)]

/-- A text that is read is that of its bytes, unless it has a plus. -/
theorem Reads.signed_or_spells {text : List Char} {bytes : List UInt8} (h : Reads text bytes) :
    ∃ pairs : List (Char × Char), text = pairs.flatMap (fun p => [p.1, p.2]) ∧
      (∀ p ∈ pairs, (p.1 = '+' ∨ IsHexDigit p.1) ∧ IsHexDigit p.2) ∧
      ((∃ p ∈ pairs, p.1 = '+') ∨ Spells text bytes) := by
  induction h with
  | nil => exact ⟨[], rfl, nofun, .inr (by simp [Spells, encodeHex])⟩
  | @cons a b x text bytes hpair _ ih =>
    obtain ⟨pairs, rfl, hpairs, hplus⟩ := ih
    obtain ⟨l, hl, hfirst⟩ := fromStrRadix_pair.1 hpair
    have hb : IsHexDigit b := Option.isSome_of_eq_some hl
    refine ⟨(a, b) :: pairs, rfl, List.forall_mem_cons.2 ⟨⟨?_, hb⟩, hpairs⟩, ?_⟩
    · exact hfirst.elim (fun ⟨_, hh, _⟩ => .inr (Option.isSome_of_eq_some hh)) fun ⟨ha, _⟩ => .inl ha
    · rcases hfirst with ⟨h, ha, hx⟩ | ⟨ha, -⟩
      · refine hplus.imp (fun ⟨p, hp, heq⟩ => ⟨p, List.mem_cons_of_mem _ hp, heq⟩) fun htext => ?_
        obtain ⟨hlower, hlower'⟩ := pair_iff.1 ⟨h, l, ha, hl, hx⟩
        unfold Spells at htext ⊢
        rw [List.map_cons, List.map_cons, encodeHex_cons, hlower, hlower', htext]
      · exact .inl ⟨_, List.mem_cons_self .., ha⟩

theorem Spells.reads {text : List Char} {bytes : List UInt8} (h : Spells text bytes) : Reads text bytes := by
  induction bytes generalizing text with
  | nil =>
    obtain rfl := List.map_eq_nil_iff.1 (h.trans (by simp [encodeHex]))
    exact .nil
  | cons x bytes ih =>
    obtain ⟨a, rest, rfl, ha, hrest⟩ := List.map_eq_cons_iff.1 (h.trans (encodeHex_cons x bytes))
    obtain ⟨b, text, rfl, hb, htext⟩ := List.map_eq_cons_iff.1 hrest
    obtain ⟨h, l, hh, hl, hx⟩ := pair_iff.2 ⟨ha, hb⟩
    exact .cons (fromStrRadix_pair.2 ⟨l, hl, .inl ⟨h, hh, hx⟩⟩) (ih htext)

theorem Spells.isHexDigit {text : List Char} {bytes : List UInt8} (h : Spells text bytes) :
    text.length % 2 = 0 ∧ ∀ c ∈ text, IsHexDigit c := by
  constructor
  · have hlength := congrArg List.length h
    rw [List.length_map] at hlength
    rw [hlength, encodeHex, String.toList_ofList, List.length_flatMap]
    simp
  · intro c hc
    have hlower : c.toLower ∈ (encodeHex bytes).toList := by
      rw [← h]
      exact List.mem_map_of_mem hc
    rw [encodeHex, String.toList_ofList] at hlower
    obtain ⟨x, -, hx⟩ := List.mem_flatMap.1 hlower
    have hlt := x.toNat_lt
    simp only [List.mem_cons, List.not_mem_nil, or_false] at hx
    rcases hx with hx | hx <;> exact Option.isSome_of_eq_some (toDigit_eq_some.2 ⟨by omega, hx⟩)

theorem decodeHex_empty : decodeHex "" = some [] := decodeHex_iff.2 .nil

theorem isHexDigit_notWhitespace {c : Char} (h : IsHexDigit c) : isWhitespace c = false := by
  obtain ⟨n, hn⟩ := Option.isSome_iff_exists.1 h
  have hall : ∀ c : Char, c.toNat < 128 → (toDigit c).isSome = true → isWhitespace c = false := fun c hc =>
    forall_ascii (P := fun c => (toDigit c).isSome = true → isWhitespace c = false) (by decide +kernel) hc
  exact hall c (toDigit_ascii hn) h

theorem Spells.decodeHex_eq {text : String} {bytes : List UInt8} (h : Spells text.toList bytes) :
    decodeHex text = some bytes := by
  have htrim : trim text = text := trim_of_forall fun c hc => isHexDigit_notWhitespace (h.isHexDigit.2 c hc)
  rw [decodeHex_iff, htrim]
  exact h.reads

theorem Spells.append {s t : List Char} {u v : List UInt8} (hs : Spells s u) (ht : Spells t v) :
    Spells (s ++ t) (u ++ v) := by
  unfold Spells encodeHex at *
  rw [String.toList_ofList] at *
  rw [List.map_append, hs, ht, List.flatMap_append]

/-- A text with a plus is read too. -/
theorem Signed.reads {text : List Char} (h : Signed text) : (∃ bytes, Reads text bytes) ∧ '+' ∈ text := by
  obtain ⟨pairs, rfl, hpairs, p, hp, hplus⟩ := h
  refine ⟨?_, List.mem_flatMap.2 ⟨p, hp, by rw [hplus]; exact List.mem_cons_self ..⟩⟩
  clear hp hplus
  induction pairs with
  | nil => exact ⟨[], .nil⟩
  | cons q pairs ih =>
    obtain ⟨⟨hfirst, hsecond⟩, hrest⟩ := List.forall_mem_cons.1 hpairs
    obtain ⟨bytes, hreads⟩ := ih hrest
    obtain ⟨l, hl⟩ := Option.isSome_iff_exists.1 hsecond
    rcases hfirst with hplus | hdigit
    · exact ⟨_, .cons (fromStrRadix_pair.2 ⟨l, hl, .inr ⟨hplus, rfl⟩⟩) hreads⟩
    · obtain ⟨h, hh⟩ := Option.isSome_iff_exists.1 hdigit
      exact ⟨_, .cons (fromStrRadix_pair.2 ⟨l, hl, .inl ⟨h, hh, rfl⟩⟩) hreads⟩

theorem not_isHexDigit_plus : ¬ IsHexDigit '+' := by
  rw [IsHexDigit, toDigit_plus]
  decide

theorem decodesExactly_iff (hex : String) : DecodesExactly hex ↔ ¬ Signed (trim hex).toList := by
  constructor
  · intro h hsigned
    obtain ⟨⟨bytes, hreads⟩, hplus⟩ := hsigned.reads
    have hnone := h.rejects (.inr ⟨'+', hplus, not_isHexDigit_plus⟩)
    cases (decodeHex_iff.2 hreads).symm.trans hnone
  · intro hplain
    have hdecodes : ∀ bytes, decodeHex hex = some bytes ↔ Spells (trim hex).toList bytes := by
      intro bytes
      rw [decodeHex_iff]
      refine ⟨fun hreads => ?_, Spells.reads⟩
      obtain ⟨pairs, htext, hpairs, hplus | hspells⟩ := hreads.signed_or_spells
      · exact absurd ⟨pairs, htext, hpairs, hplus⟩ hplain
      · exact hspells
    refine ⟨fun bytes => ?_, hdecodes, fun hwrong => ?_⟩
    · rw [decodeHex_iff, trim_encodeHex]
      exact (spells_encodeHex bytes).reads
    · rw [Option.eq_none_iff_forall_ne_some]
      intro bytes hsome
      obtain ⟨heven, hdigits⟩ := ((hdecodes bytes).1 hsome).isHexDigit
      rcases hwrong with hodd | ⟨c, hc, hother⟩
      · omega
      · exact hother (hdigits c hc)

/-- A plus in the place of a digit. -/
theorem plus_decoded : ¬ DecodesExactly "+f" := by
  intro h
  have hnone := h.rejects (.inr ⟨'+', by decide, not_isHexDigit_plus⟩)
  have hsome := decodeHex_iff.2 (show Reads (trim "+f").toList [15] from .cons (by decide) .nil)
  cases hsome.symm.trans hnone

end Fusions.Ai
