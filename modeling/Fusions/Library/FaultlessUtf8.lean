import Fusions.Library.LossyUtf8

/-! UTF-8 without a fault: a string is read from its bytes, and only from them. -/
namespace Fusions.Library.LossyUtf8

/-- What a first byte begins: how many bytes follow the next one, its bits, and the range of the second byte. -/
structure Begun.Of (begun : Begun) (b : UInt8) : Prop where
  range : 194 ≤ b.toNat ∧ b.toNat ≤ 223 ∧ begun.owed = 0 ∧ b.toNat = begun.bits + 192 ∨
    224 ≤ b.toNat ∧ b.toNat ≤ 239 ∧ begun.owed = 1 ∧ b.toNat = begun.bits + 224 ∨
    240 ≤ b.toNat ∧ b.toNat ≤ 244 ∧ begun.owed = 2 ∧ b.toNat = begun.bits + 240
  low : begun.low.toNat = if b.toNat = 224 then 160 else if b.toNat = 240 then 144 else 128
  high : begun.high.toNat = if b.toNat = 237 then 159 else if b.toNat = 244 then 143 else 191

/-- The second byte of most characters. -/
theorem Begun.Of.plain {begun : Begun} {b : UInt8}
    (hrange : 194 ≤ b.toNat ∧ b.toNat ≤ 223 ∧ begun.owed = 0 ∧ b.toNat = begun.bits + 192 ∨
      224 ≤ b.toNat ∧ b.toNat ≤ 239 ∧ begun.owed = 1 ∧ b.toNat = begun.bits + 224 ∨
      240 ≤ b.toNat ∧ b.toNat ≤ 244 ∧ begun.owed = 2 ∧ b.toNat = begun.bits + 240)
    (hne : b.toNat ≠ 224 ∧ b.toNat ≠ 237 ∧ b.toNat ≠ 240 ∧ b.toNat ≠ 244) (hlow : begun.low = 0x80)
    (hhigh : begun.high = 0xBF) : begun.Of b := by
  refine ⟨hrange, ?_, ?_⟩
  · rw [hlow, if_neg hne.1, if_neg hne.2.2.1]
    rfl
  · rw [hhigh, if_neg hne.2.1, if_neg hne.2.2.2]
    rfl

theorem begin?_cases (b : UInt8) :
    (∃ begun, begin? b = some begun ∧ begun.Of b) ∨ begin? b = none ∧ (b.toNat < 194 ∨ 244 < b.toNat) := by
  have hnat {n : UInt8} : b ≠ n → b.toNat ≠ n.toNat := mt UInt8.toNat_inj.mp
  unfold begin?
  by_cases htwo : 0xC2 ≤ b.toNat ∧ b.toNat ≤ 0xDF
  · rw [dif_pos htwo]
    exact .inl ⟨_, rfl, .plain (.inl (by dsimp only; omega)) (by omega) rfl rfl⟩
  rw [dif_neg htwo]
  by_cases hE0 : b = 0xE0
  · subst hE0
    exact .inl ⟨_, rfl, by decide, by decide, by decide⟩
  rw [if_neg hE0]
  by_cases hED : b = 0xED
  · subst hED
    exact .inl ⟨_, rfl, by decide, by decide, by decide⟩
  rw [if_neg hED]
  have hE0 := hnat hE0
  have hED := hnat hED
  by_cases hthree : 0xE1 ≤ b.toNat ∧ b.toNat ≤ 0xEF
  · rw [dif_pos hthree]
    refine .inl ⟨_, rfl, .plain (.inr (.inl (by dsimp only; omega))) ?_ rfl rfl⟩
    exact ⟨hE0, hED, by omega, by omega⟩
  rw [dif_neg hthree]
  by_cases hF0 : b = 0xF0
  · subst hF0
    exact .inl ⟨_, rfl, by decide, by decide, by decide⟩
  rw [if_neg hF0]
  by_cases hfour : 0xF1 ≤ b.toNat ∧ b.toNat ≤ 0xF3
  · rw [dif_pos hfour]
    exact .inl ⟨_, rfl, .plain (.inr (.inr (by dsimp only; omega))) (by omega) rfl rfl⟩
  rw [dif_neg hfour]
  by_cases hF4 : b = 0xF4
  · subst hF4
    exact .inl ⟨_, rfl, by decide, by decide, by decide⟩
  rw [if_neg hF4]
  have hE0 : b.toNat ≠ 224 := hE0
  have hED : b.toNat ≠ 237 := hED
  have hF0 : b.toNat ≠ 240 := hnat hF0
  have hF4 : b.toNat ≠ 244 := hnat hF4
  exact .inr ⟨rfl, by omega⟩

theorem Begun.next_last {begun : Begun} {b : UInt8} (h : begun.low.toNat ≤ b.toNat ∧ b.toNat ≤ begun.high.toNat)
    (howed : begun.owed = 0) : begun.next b h = ([Char.ofNat (begun.bits * 64 + b.toNat % 64)], none) := by
  unfold Begun.next
  split
  · rfl
  · next hmore => rw [howed] at hmore; cases hmore

/-- A character is still begun after a byte that is not its last. -/
theorem Begun.next_more {begun : Begun} {b : UInt8} {owed : Nat}
    (h : begun.low.toNat ≤ b.toNat ∧ b.toNat ≤ begun.high.toNat) (howed : begun.owed = owed + 1) :
    ∃ begun', begun.next b h = ([], some begun') ∧ begun'.owed = owed ∧ begun'.low.toNat = 128 ∧
      begun'.high.toNat = 191 ∧ begun'.bits = begun.bits * 64 + b.toNat % 64 := by
  unfold Begun.next
  split
  · next hzero => rw [howed] at hzero; cases hzero
  · next hsucc => exact ⟨_, rfl, Nat.succ.inj (hsucc.symm.trans howed), rfl, rfl, rfl⟩

/-- The bytes that go on with a character to its end, and its number. -/
inductive Begun.Ends : Begun → List UInt8 → Nat → Prop where
  | last {begun : Begun} {b : UInt8} (h : begun.low.toNat ≤ b.toNat ∧ b.toNat ≤ begun.high.toNat)
      (howed : begun.owed = 0) : Ends begun [b] (begun.bits * 64 + b.toNat % 64)
  | more {begun begun' : Begun} {b : UInt8} {tail : List UInt8} {n : Nat}
      (h : begun.low.toNat ≤ b.toNat ∧ b.toNat ≤ begun.high.toNat)
      (hnext : begun.next b h = ([], some begun')) (htail : Ends begun' tail n) : Ends begun (b :: tail) n

theorem Begun.Ends.decodeFrom {begun : Begun} {tail : List UInt8} {n : Nat} (h : begun.Ends tail n)
    (rest : List UInt8) :
    decodeFrom (some begun) (tail ++ rest) = Char.ofNat n :: decodeFrom none rest := by
  induction h with
  | last h howed => rw [List.singleton_append, decodeFrom_cons, step, dif_pos h, next_last h howed]; rfl
  | more h hnext _ ih => rw [List.cons_append, decodeFrom_cons, step, dif_pos h, hnext, ih, List.nil_append]

/-- Without a replacement a character that is begun is ended. -/
theorem Begun.exists_ends {owed : Nat} {begun : Begun} {bytes : List UInt8} (howed : begun.owed = owed)
    (hclean : replacement ∉ LossyUtf8.decodeFrom (some begun) bytes) :
    ∃ tail rest n, bytes = tail ++ rest ∧ begun.Ends tail n := by
  induction owed generalizing begun bytes with
  | zero =>
    cases bytes with
    | nil => exact absurd List.mem_cons_self hclean
    | cons b bytes =>
      rw [decodeFrom_cons, step] at hclean
      by_cases h : begun.low.toNat ≤ b.toNat ∧ b.toNat ≤ begun.high.toNat
      · exact ⟨[b], bytes, _, rfl, .last h howed⟩
      · rw [dif_neg h] at hclean
        exact absurd List.mem_cons_self hclean
  | succ owed ih =>
    cases bytes with
    | nil => exact absurd List.mem_cons_self hclean
    | cons b bytes =>
      rw [decodeFrom_cons, step] at hclean
      by_cases h : begun.low.toNat ≤ b.toNat ∧ b.toNat ≤ begun.high.toNat
      · obtain ⟨begun', hnext, howed', -⟩ := next_more h howed
        rw [dif_pos h, hnext, List.nil_append] at hclean
        obtain ⟨tail, rest, n, rfl, hends⟩ := ih howed' hclean
        exact ⟨b :: tail, rest, n, rfl, .more h hnext hends⟩
      · rw [dif_neg h] at hclean
        exact absurd List.mem_cons_self hclean

/-- The last byte, of a character of two bytes. -/
theorem Begun.Ends.one {begun : Begun} {tail : List UInt8} {n : Nat} (h : begun.Ends tail n)
    (howed : begun.owed = 0) : ∃ b, tail = [b] ∧ begun.low.toNat ≤ b.toNat ∧ b.toNat ≤ begun.high.toNat ∧
      n = begun.bits * 64 + b.toNat % 64 := by
  cases h with
  | last h => exact ⟨_, rfl, h.1, h.2, rfl⟩
  | more h hnext _ => rw [next_last h howed] at hnext; cases hnext

theorem Begun.Ends.more_inv {begun : Begun} {tail : List UInt8} {n owed : Nat} (h : begun.Ends tail n)
    (howed : begun.owed = owed + 1) :
    ∃ (b : UInt8) (more : List UInt8) (begun' : Begun), tail = b :: more ∧ begun.low.toNat ≤ b.toNat ∧
      b.toNat ≤ begun.high.toNat ∧ begun'.owed = owed ∧ begun'.low.toNat = 128 ∧ begun'.high.toNat = 191 ∧
      begun'.bits = begun.bits * 64 + b.toNat % 64 ∧ begun'.Ends more n := by
  cases h with
  | last _ hzero => rw [howed] at hzero; cases hzero
  | more h hnext htail =>
    obtain ⟨begun', hnext', howed', hlow, hhigh, hbits⟩ := next_more h howed
    rw [hnext] at hnext'
    cases hnext'
    exact ⟨_, _, _, rfl, h.1, h.2, howed', hlow, hhigh, hbits, htail⟩

theorem ofNat_eq {n : Nat} {b : UInt8} (h : n = b.toNat) : UInt8.ofNat n = b := by
  rw [h, UInt8.ofNat_toNat]

/-- The last six bits of a number and those in front of them. -/
theorem six_bits {n bits b : Nat} (h : n = bits * 64 + b % 64) (hge : 128 ≤ b) (hle : b ≤ 191) :
    n / 64 = bits ∧ n % 64 + 128 = b := by
  omega

theorem div_4096 (n : Nat) : n / 4096 = n / 64 / 64 := (Nat.div_div_eq_div_mul n 64 64).symm

theorem div_262144 (n : Nat) : n / 262144 = n / 64 / 64 / 64 := by
  rw [Nat.div_div_eq_div_mul, Nat.div_div_eq_div_mul]

theorem toNat_ofNat {n : Nat} (h : n.isValidChar) : (Char.ofNat n).val.toNat = n := by
  rw [Char.ofNat, dif_pos h]
  rfl

/-- The bytes that may follow the first one. -/
theorem Begun.Of.second_iff {begun : Begun} {b : UInt8} (hof : begun.Of b) {next : Nat} :
    begun.low.toNat ≤ next ∧ next ≤ begun.high.toNat ↔
      128 ≤ next ∧ next ≤ 191 ∧ (b.toNat = 224 → 160 ≤ next) ∧ (b.toNat = 240 → 144 ≤ next) ∧
        (b.toNat = 237 → next ≤ 159) ∧ (b.toNat = 244 → next ≤ 143) := by
  rw [hof.low, hof.high]
  by_cases hE0 : b.toNat = 224
  · rw [if_pos hE0, if_neg (by omega), if_neg (by omega)]
    omega
  by_cases hF0 : b.toNat = 240
  · rw [if_neg hE0, if_pos hF0, if_neg (by omega), if_neg (by omega)]
    omega
  by_cases hED : b.toNat = 237
  · rw [if_neg hE0, if_neg hF0, if_pos hED]
    omega
  by_cases hF4 : b.toNat = 244
  · rw [if_neg hE0, if_neg hF0, if_neg hED, if_pos hF4]
    omega
  rw [if_neg hE0, if_neg hF0, if_neg hED, if_neg hF4]
  omega

/-- The bytes of a character are those that are read as it. -/
theorem encode_of_ends {b : UInt8} {begun : Begun} {tail : List UInt8} {n : Nat} (hof : begun.Of b)
    (h : begun.Ends tail n) : String.utf8EncodeChar (Char.ofNat n) = b :: tail := by
  obtain ⟨hge, hle, howed, hbits⟩ | ⟨hge, hle, howed, hbits⟩ | ⟨hge, hle, howed, hbits⟩ := hof.range
  · obtain ⟨b1, rfl, hb1, hb1', hn⟩ := h.one howed
    obtain ⟨hlow, hhigh, -⟩ := hof.second_iff.1 ⟨hb1, hb1'⟩
    obtain ⟨hdiv, hmod⟩ := six_bits hn (by omega) (by omega)
    have hval := toNat_ofNat (n := n) (.inl (by omega))
    unfold String.utf8EncodeChar
    dsimp only
    rw [hval, if_neg (by omega), if_pos (by omega), hdiv, ofNat_eq (b := b) (by omega), ofNat_eq hmod]
  · obtain ⟨b1, more, begun1, rfl, hb1, hb1', howed1, hlow1, hhigh1, hbits1, h⟩ := h.more_inv howed
    obtain ⟨b2, rfl, hb2, hb2', hn⟩ := h.one howed1
    obtain ⟨hlow, hhigh, hE0, hF0, hED, hF4⟩ := hof.second_iff.1 ⟨hb1, hb1'⟩
    obtain ⟨hdiv1, hmod1⟩ := six_bits hbits1 (by omega) (by omega)
    obtain ⟨hdiv, hmod⟩ := six_bits hn (by omega) (by omega)
    have hrange : 32 ≤ begun1.bits ∧ begun1.bits < 1024 ∧ (begun1.bits < 864 ∨ 895 < begun1.bits) := by omega
    have hval := toNat_ofNat (n := n) (by unfold Nat.isValidChar; omega)
    unfold String.utf8EncodeChar
    dsimp only
    rw [hval, if_neg (by omega), if_neg (by omega), if_pos (by omega), div_4096, hdiv, hdiv1,
      ofNat_eq (b := b) (by omega), ofNat_eq hmod1, ofNat_eq hmod]
  · obtain ⟨b1, more, begun1, rfl, hb1, hb1', howed1, hlow1, hhigh1, hbits1, h⟩ := h.more_inv howed
    obtain ⟨b2, more, begun2, rfl, hb2, hb2', howed2, hlow2, hhigh2, hbits2, h⟩ := h.more_inv howed1
    obtain ⟨b3, rfl, hb3, hb3', hn⟩ := h.one howed2
    obtain ⟨hlow, hhigh, hE0, hF0, hED, hF4⟩ := hof.second_iff.1 ⟨hb1, hb1'⟩
    obtain ⟨hdiv1, hmod1⟩ := six_bits hbits1 (by omega) (by omega)
    obtain ⟨hdiv2, hmod2⟩ := six_bits hbits2 (by omega) (by omega)
    obtain ⟨hdiv, hmod⟩ := six_bits hn (by omega) (by omega)
    have hrange1 : 16 ≤ begun1.bits ∧ begun1.bits < 272 := by omega
    have hrange : 65536 ≤ n ∧ n < 0x110000 := by omega
    have hval := toNat_ofNat (n := n) (by unfold Nat.isValidChar; omega)
    unfold String.utf8EncodeChar
    dsimp only
    rw [hval, if_neg (by omega), if_neg (by omega), if_neg (by omega), div_262144, div_4096, hdiv, hdiv2, hdiv1,
      ofNat_eq (b := b) (by omega), ofNat_eq hmod1, ofNat_eq hmod2, ofNat_eq hmod]

/-- The byte of a number below 256. -/
theorem toNat_ofNat_byte {n : Nat} (h : n < 256) : (UInt8.ofNat n).toNat = n := by
  rw [UInt8.toNat_ofNat']
  exact Nat.mod_eq_of_lt h

theorem Begun.Ends.last_of_eq {begun : Begun} {b : UInt8} {n : Nat}
    (h : begun.low.toNat ≤ b.toNat ∧ b.toNat ≤ begun.high.toNat) (howed : begun.owed = 0)
    (hn : n = begun.bits * 64 + b.toNat % 64) : Begun.Ends begun [b] n := by
  subst hn
  exact .last h howed

theorem exists_begin {b : UInt8} (hge : 194 ≤ b.toNat) (hle : b.toNat ≤ 244) :
    ∃ begun, begin? b = some begun ∧ begun.Of b := by
  obtain hof | ⟨-, hout⟩ := begin?_cases b
  · exact hof
  · omega

/-- A character from 128 on is read from its bytes. -/
theorem exists_ends_encode {c : Char} (hc : 128 ≤ c.toNat) :
    ∃ b begun tail, String.utf8EncodeChar c = b :: tail ∧ begin? b = some begun ∧ begun.Ends tail c.toNat := by
  have hvalid : c.val.toNat < 55296 ∨ 57343 < c.val.toNat ∧ c.val.toNat < 1114112 := c.valid
  unfold String.utf8EncodeChar
  change 128 ≤ c.val.toNat at hc
  change ∃ b begun tail, _ ∧ _ ∧ Begun.Ends begun tail c.val.toNat
  generalize c.val.toNat = v at hc hvalid ⊢
  dsimp only
  have hlast := toNat_ofNat_byte (n := v % 64 + 128) (by omega)
  have hmid := toNat_ofNat_byte (n := v / 64 % 64 + 128) (by omega)
  generalize UInt8.ofNat (v % 64 + 128) = last at hlast ⊢
  generalize UInt8.ofNat (v / 64 % 64 + 128) = mid at hmid ⊢
  rw [if_neg (by omega)]
  by_cases htwo : v ≤ 0x7ff
  · rw [if_pos htwo]
    have hb := toNat_ofNat_byte (n := v / 64 % 32 + 192) (by omega)
    generalize UInt8.ofNat (v / 64 % 32 + 192) = b at hb ⊢
    obtain ⟨begun, hbegin, hof⟩ := exists_begin (b := b) (by omega) (by omega)
    have hrange := hof.range
    exact ⟨b, begun, [last], rfl, hbegin, .last_of_eq (hof.second_iff.2 (by omega)) (by omega) (by omega)⟩
  rw [if_neg htwo]
  by_cases hthree : v ≤ 0xffff
  · rw [if_pos hthree]
    have hb := toNat_ofNat_byte (n := v / 4096 % 16 + 224) (by omega)
    generalize UInt8.ofNat (v / 4096 % 16 + 224) = b at hb ⊢
    obtain ⟨begun, hbegin, hof⟩ := exists_begin (b := b) (by omega) (by omega)
    have hrange := hof.range
    have hsecond : begun.low.toNat ≤ mid.toNat ∧ mid.toNat ≤ begun.high.toNat := hof.second_iff.2 (by omega)
    obtain ⟨begun1, hnext, howed1, hlow1, hhigh1, hbits1⟩ := Begun.next_more hsecond (show begun.owed = 0 + 1 by omega)
    have hthird : begun1.Ends [last] v := .last_of_eq (by omega) howed1 (by omega)
    exact ⟨b, begun, [mid, last], rfl, hbegin, .more hsecond hnext hthird⟩
  · rw [if_neg hthree]
    have hb := toNat_ofNat_byte (n := v / 262144 % 8 + 240) (by omega)
    have hhigh := toNat_ofNat_byte (n := v / 4096 % 64 + 128) (by omega)
    generalize UInt8.ofNat (v / 262144 % 8 + 240) = b at hb ⊢
    generalize UInt8.ofNat (v / 4096 % 64 + 128) = high at hhigh ⊢
    obtain ⟨begun, hbegin, hof⟩ := exists_begin (b := b) (by omega) (by omega)
    have hrange := hof.range
    have hsecond : begun.low.toNat ≤ high.toNat ∧ high.toNat ≤ begun.high.toNat := hof.second_iff.2 (by omega)
    obtain ⟨begun1, hnext, howed1, hlow1, hhigh1, hbits1⟩ := Begun.next_more hsecond (show begun.owed = 1 + 1 by omega)
    have hthird : begun1.low.toNat ≤ mid.toNat ∧ mid.toNat ≤ begun1.high.toNat := by omega
    obtain ⟨begun2, hnext2, howed2, hlow2, hhigh2, hbits2⟩ := Begun.next_more hthird howed1
    have hfourth : begun2.Ends [last] v := .last_of_eq (by omega) howed2 (by omega)
    exact ⟨b, begun, [high, mid, last], rfl, hbegin, .more hsecond hnext (.more hthird hnext2 hfourth)⟩

/-- The byte of a character below 128 and that character. -/
theorem ascii_bytes {c : Char} {b : UInt8} (h : c.toNat = b.toNat) (hb : b.toNat < 128) :
    String.utf8EncodeChar c = [b] ∧ Char.ofNat b.toNat = c := by
  refine ⟨?_, by rw [← h, Char.ofNat_toNat]⟩
  rw [utf8EncodeChar_ascii (by rw [h]; exact hb)]
  exact congrArg (fun b => [b]) (ofNat_eq h)

theorem decodeFrom_encode (c : Char) (rest : List UInt8) :
    decodeFrom none (String.utf8EncodeChar c ++ rest) = c :: decodeFrom none rest := by
  by_cases hc : c.toNat < 128
  · have hbyte : (UInt8.ofNat c.toNat).toNat = c.toNat := toNat_ofNat_byte (Nat.lt_trans hc (by decide))
    have hb : (UInt8.ofNat c.toNat).toNat < 128 := by rw [hbyte]; exact hc
    obtain ⟨hencode, hchar⟩ := ascii_bytes hbyte.symm hb
    rw [hencode, List.singleton_append, decodeFrom_cons, step_ascii none hb, hchar]
    rfl
  · obtain ⟨b, begun, tail, hbytes, hbegin, hends⟩ := exists_ends_encode (Nat.le_of_not_lt hc)
    have hhigh : 128 ≤ b.toNat := UInt8.le_iff_toNat_le.1
      (utf8EncodeChar_high (Nat.le_of_not_lt hc) b (by rw [hbytes]; exact List.mem_cons_self))
    have hfirst : first b = ([], some begun) := by
      rw [first, if_neg (Nat.not_lt.2 hhigh), hbegin]
    rw [hbytes, List.cons_append, decodeFrom_cons, step, hfirst, List.nil_append, hends.decodeFrom, Char.ofNat_toNat]

/-- Bytes read without a replacement begin with those of a character. -/
theorem exists_encode {b : UInt8} {bytes : List UInt8} (hclean : replacement ∉ decodeFrom none (b :: bytes)) :
    ∃ c rest, b :: bytes = String.utf8EncodeChar c ++ rest ∧ rest.length ≤ bytes.length := by
  by_cases hb : b.toNat < 128
  · have hval : (Char.ofNat b.toNat).toNat = b.toNat := toNat_ofNat (.inl (by omega))
    exact ⟨Char.ofNat b.toNat, bytes, by rw [(ascii_bytes hval hb).1]; rfl, Nat.le_refl _⟩
  · rw [decodeFrom_cons, step, first, if_neg hb] at hclean
    obtain ⟨begun, hbegin, hof⟩ | ⟨hbegin, -⟩ := begin?_cases b
    · rw [hbegin, List.nil_append] at hclean
      obtain ⟨tail, rest, n, rfl, hends⟩ := Begun.exists_ends rfl hclean
      refine ⟨Char.ofNat n, rest, by rw [encode_of_ends hof hends]; rfl, ?_⟩
      rw [List.length_append]
      exact Nat.le_add_left _ _
    · rw [hbegin] at hclean
      exact absurd List.mem_cons_self hclean

/-- A string is read from its bytes. -/
theorem fromUtf8Lossy_utf8 (s : String) : fromUtf8Lossy s.toUTF8.toList = s.toList := by
  rw [utf8_toList]
  induction s.toList with
  | nil => rfl
  | cons c cs ih =>
    rw [List.flatMap_cons]
    exact (decodeFrom_encode c _).trans (congrArg _ ih)

/-- Bytes read without a replacement are those of the text read. -/
theorem encode_decodeFrom {bytes : List UInt8} (hclean : replacement ∉ decodeFrom none bytes) :
    (decodeFrom none bytes).flatMap String.utf8EncodeChar = bytes := by
  induction hn : bytes.length using Nat.strongRecOn generalizing bytes with
  | ind n ih =>
    cases bytes with
    | nil => rfl
    | cons b bytes =>
      obtain ⟨c, rest, hbytes, hle⟩ := exists_encode hclean
      rw [hbytes, decodeFrom_encode] at hclean ⊢
      have hlt : rest.length < n := by rw [← hn]; exact Nat.lt_succ_of_le hle
      have hrest := ih rest.length hlt (List.not_mem_of_not_mem_cons hclean) rfl
      rw [List.flatMap_cons, hrest]

theorem utf8_fromUtf8Lossy {bytes : List UInt8} {s : String} (h : fromUtf8Lossy bytes = s.toList)
    (hclean : replacement ∉ s.toList) : bytes = s.toUTF8.toList := by
  rw [← h] at hclean
  rw [utf8_toList, ← h]
  exact (encode_decodeFrom hclean).symm

/-- What comes behind a text in the bytes of another is the bytes of a text. -/
theorem exists_encode_of_append {s t : List Char} {w : List UInt8}
    (h : s.flatMap String.utf8EncodeChar ++ w = t.flatMap String.utf8EncodeChar) :
    ∃ u : List Char, w = u.flatMap String.utf8EncodeChar := by
  induction s generalizing t with
  | nil => exact ⟨t, h⟩
  | cons c s ih =>
    rw [List.flatMap_cons, List.append_assoc] at h
    cases t with
    | nil => exact absurd (List.append_eq_nil_iff.1 h).1 String.utf8EncodeChar_ne_nil
    | cons d t =>
      rw [List.flatMap_cons] at h
      have hread := congrArg (decodeFrom none) h
      rw [decodeFrom_encode, decodeFrom_encode] at hread
      obtain ⟨rfl, -⟩ := List.cons.inj hread
      exact ih (List.append_cancel_left h)

/-- A byte below 128 stands between two texts. -/
theorem exists_encode_cut {t : List Char} {u v : List UInt8} {b : UInt8} (hb : b < 128)
    (h : u ++ b :: v = t.flatMap String.utf8EncodeChar) :
    (∃ front : List Char, u = front.flatMap String.utf8EncodeChar) ∧
      ∃ back : List Char, v = back.flatMap String.utf8EncodeChar := by
  induction t generalizing u with
  | nil => exact absurd h (by simp)
  | cons c t ih =>
    rw [List.flatMap_cons] at h
    rcases List.append_eq_append_iff.1 h with ⟨w, hencode, hrest⟩ | ⟨w, rfl, hrest⟩
    · cases w with
      | nil =>
        rw [List.append_nil] at hencode
        obtain ⟨-, hback⟩ := ih (u := []) hrest
        exact ⟨⟨[c], by simp [hencode]⟩, hback⟩
      | cons x w =>
        obtain ⟨rfl, rfl⟩ := List.cons.inj hrest
        have hmem : b ∈ String.utf8EncodeChar c := by
          rw [hencode]
          exact List.mem_append_right _ (List.mem_cons_self ..)
        have hc : c.toNat < 128 := by
          by_contra hhigh
          exact absurd (utf8EncodeChar_high (Nat.le_of_not_lt hhigh) b hmem) (UInt8.not_le.2 hb)
        rw [utf8EncodeChar_ascii hc] at hencode
        obtain ⟨rfl, hw⟩ := List.append_eq_singleton_iff.1 hencode.symm |>.resolve_right (by simp)
        obtain rfl := (List.cons.inj hw).2
        exact ⟨⟨[], rfl⟩, t, rfl⟩
    · obtain ⟨⟨front, hfront⟩, hback⟩ := ih hrest.symm
      exact ⟨⟨c :: front, by rw [List.flatMap_cons, hfront]⟩, hback⟩

end Fusions.Library.LossyUtf8
