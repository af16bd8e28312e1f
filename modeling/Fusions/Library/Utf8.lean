import Fusions.Library.Separated

/-! The UTF-8 bytes of a string. They tell the string, and a byte below 128 stands for a character. -/
namespace Fusions.Library

theorem byteArray_toList (bytes : ByteArray) : bytes.toList = bytes.data.toList := by
  have hloop (i : Nat) (r : List UInt8) :
      ByteArray.toList.loop bytes i r = r.reverse ++ bytes.data.toList.drop i := by
    fun_induction ByteArray.toList.loop bytes i r with
    | case1 i r hlt ih =>
      have hlen : i < bytes.data.toList.length := hlt
      have hget : bytes.get! i = bytes.data.toList[i] := by
        rw [show bytes.get! i = bytes.data[i]! from rfl, getElem!_pos bytes.data i hlt, Array.getElem_toList]
      rw [ih, hget, List.reverse_cons, List.append_assoc, List.drop_eq_getElem_cons hlen]
      rfl
    | case2 i r hge => rw [List.drop_eq_nil_of_le (Nat.le_of_not_lt hge), List.append_nil]
  exact hloop 0 []

theorem utf8_toList (s : String) : s.toUTF8.toList = s.toList.flatMap String.utf8EncodeChar := by
  rw [byteArray_toList, String.toUTF8_eq_toByteArray, ← String.utf8Encode_toList]
  exact List.toList_data_toByteArray

theorem utf8_append (s t : String) : (s ++ t).toUTF8.toList = s.toUTF8.toList ++ t.toUTF8.toList := by
  simp only [utf8_toList, String.toList_append, List.flatMap_append]

theorem utf8_empty : ("" : String).toUTF8.toList = [] := by
  rw [utf8_toList, String.toList_empty, List.flatMap_nil]

theorem utf8_join (parts : List String) :
    (String.join parts).toUTF8.toList = parts.flatMap fun part => part.toUTF8.toList := by
  induction parts with
  | nil => rw [String.join_nil, utf8_empty, List.flatMap_nil]
  | cons part parts ih => rw [String.join_cons, utf8_append, List.flatMap_cons, ih]

theorem utf8_intercalate (sep : String) (parts : List String) :
    (sep.intercalate parts).toUTF8.toList =
      sep.toUTF8.toList.intercalate (parts.map fun part => part.toUTF8.toList) := by
  simp only [utf8_toList, String.toList_intercalate, flatMap_intercalate, List.map_map, Function.comp_def]

theorem utf8_injective {s t : String} (h : s.toUTF8.toList = t.toUTF8.toList) : s = t := by
  rw [byteArray_toList, byteArray_toList] at h
  exact String.toByteArray_inj.1 (ByteArray.ext (Array.toList_inj.1 h))

theorem fromUTF8?_utf8 (s : String) : String.fromUTF8? ⟨s.toUTF8.toList.toArray⟩ = some s := by
  have hbytes : (⟨s.toUTF8.toList.toArray⟩ : ByteArray) = s.toByteArray := by
    rw [byteArray_toList, Array.toArray_toList, String.toUTF8_eq_toByteArray]
  rw [hbytes, String.fromUTF8?, dif_pos s.isValidUTF8]
  rfl

theorem utf8_of_fromUTF8? {bytes : List UInt8} {s : String} (h : String.fromUTF8? ⟨bytes.toArray⟩ = some s) :
    bytes = s.toUTF8.toList := by
  rw [String.fromUTF8?] at h
  split at h
  · cases h
    rw [byteArray_toList]
    rfl
  · cases h

theorem utf8Size_eq_one {c : Char} : c.utf8Size = 1 ↔ c.toNat < 128 := by
  rw [Char.utf8Size_eq_one_iff, UInt32.le_iff_toNat_le]
  exact Nat.lt_succ_iff.symm

theorem utf8EncodeChar_ascii {c : Char} (h : c.toNat < 128) : String.utf8EncodeChar c = [c.toUInt8] :=
  String.utf8EncodeChar_eq_singleton (utf8Size_eq_one.2 h)

/-- Every byte of a character from 128 on is one from 128 on. -/
theorem utf8EncodeChar_high {c : Char} (h : 128 ≤ c.toNat) : ∀ b ∈ String.utf8EncodeChar c, 128 ≤ b := by
  have hor (x y : UInt8) (hy : 128 ≤ y) : 128 ≤ x ||| y := by
    rw [UInt8.le_iff_toNat_le] at hy ⊢
    rw [UInt8.toNat_or]
    exact Nat.le_trans hy Nat.right_le_or
  have hone : c.utf8Size ≠ 1 := fun hone => Nat.not_lt.2 h (utf8Size_eq_one.1 hone)
  have hpos := c.utf8Size_pos
  have hle := c.utf8Size_le_four
  obtain htwo | hthree | hfour : c.utf8Size = 2 ∨ c.utf8Size = 3 ∨ c.utf8Size = 4 := by omega
  · rw [String.utf8EncodeChar_eq_cons_cons htwo]
    simp only [List.forall_mem_cons]
    exact ⟨hor _ _ (by decide), hor _ _ (by decide), nofun⟩
  · rw [String.utf8EncodeChar_eq_cons_cons_cons hthree]
    simp only [List.forall_mem_cons]
    exact ⟨hor _ _ (by decide), hor _ _ (by decide), hor _ _ (by decide), nofun⟩
  · rw [String.utf8EncodeChar_eq_cons_cons_cons_cons hfour]
    simp only [List.forall_mem_cons]
    exact ⟨hor _ _ (by decide), hor _ _ (by decide), hor _ _ (by decide), hor _ _ (by decide), nofun⟩

/-- What holds of the 128 characters of ASCII holds below 128. -/
theorem forall_ascii {P : Char → Prop} (h : ∀ n : Nat, n < 128 → P (Char.ofNat n)) {c : Char} (hc : c.toNat < 128) :
    P c := by
  have hn := h c.toNat hc
  rwa [Char.ofNat_toNat] at hn

theorem toUInt8_lt {c : Char} (h : c.toNat < 128) : c.toUInt8 < 128 := by
  rw [UInt8.lt_iff_toNat_lt, Char.toUInt8, UInt32.toNat_toUInt8]
  exact Nat.lt_of_le_of_lt (Nat.mod_le _ _) h

theorem toUInt8_injective {c d : Char} (hc : c.toNat < 128) (hd : d.toNat < 128) (h : c.toUInt8 = d.toUInt8) :
    c = d := by
  have hnat := congrArg UInt8.toNat h
  rw [Char.toUInt8, Char.toUInt8, UInt32.toNat_toUInt8, UInt32.toNat_toUInt8] at hnat
  have heq : c.toNat = d.toNat := by
    have hc' : c.val.toNat = c.toNat := rfl
    have hd' : d.val.toNat = d.toNat := rfl
    omega
  rw [← Char.ofNat_toNat c, ← Char.ofNat_toNat d, heq]

/-- The byte of a character below 128 is among the bytes where the character is in the string. -/
theorem mem_utf8 {c : Char} (hc : c.toNat < 128) {s : String} : c.toUInt8 ∈ s.toUTF8.toList ↔ c ∈ s.toList := by
  rw [utf8_toList, List.mem_flatMap]
  constructor
  · rintro ⟨d, hd, hmem⟩
    rcases Nat.lt_or_ge d.toNat 128 with hlow | hhigh
    · rw [utf8EncodeChar_ascii hlow, List.mem_singleton] at hmem
      rwa [toUInt8_injective hc hlow hmem]
    · exact absurd (toUInt8_lt hc) (UInt8.not_lt.2 (utf8EncodeChar_high hhigh _ hmem))
  · intro h
    exact ⟨c, h, by rw [utf8EncodeChar_ascii hc]; exact List.mem_singleton_self _⟩

theorem utf8_ascii {s : String} (h : ∀ c ∈ s.toList, c.toNat < 128) :
    s.toUTF8.toList = s.toList.map Char.toUInt8 := by
  rw [utf8_toList, List.map_eq_flatMap]
  exact List.flatMap_congr fun c hc => utf8EncodeChar_ascii (h c hc)

/-- The character with the number of a byte. -/
theorem toNat_ofNat_byte (b : UInt8) : (Char.ofNat b.toNat).toNat = b.toNat := by
  have hvalid : b.toNat.isValidChar := .inl (by have := b.toNat_lt; omega)
  rw [Char.ofNat, dif_pos hvalid]
  rfl

theorem toUInt8_ofNat_byte (b : UInt8) : (Char.ofNat b.toNat).toUInt8 = b := by
  apply UInt8.toNat_inj.1
  rw [Char.toUInt8, UInt32.toNat_toUInt8, show (Char.ofNat b.toNat).val.toNat = b.toNat from toNat_ofNat_byte b]
  exact Nat.mod_eq_of_lt b.toNat_lt

theorem ofNat_toUInt8 {c : Char} (h : c.toNat < 128) : Char.ofNat c.toUInt8.toNat = c := by
  rw [Char.toUInt8, UInt32.toNat_toUInt8, show c.val.toNat = c.toNat from rfl, Nat.mod_eq_of_lt (by omega),
    Char.ofNat_toNat]

theorem utf8_ofList_bytes {bytes : List UInt8} (h : ∀ b ∈ bytes, b < 128) :
    (String.ofList (bytes.map fun b => Char.ofNat b.toNat)).toUTF8.toList = bytes := by
  rw [utf8_ascii, String.toList_ofList, List.map_map]
  · simp [Function.comp_def, toUInt8_ofNat_byte]
  · intro c hc
    rw [String.toList_ofList] at hc
    obtain ⟨b, hb, rfl⟩ := List.mem_map.1 hc
    rw [toNat_ofNat_byte]
    exact UInt8.lt_iff_toNat_lt.1 (h b hb)

/-- Text below 128 is read back byte by byte. -/
theorem ofList_utf8 {s : String} (h : ∀ c ∈ s.toList, c.toNat < 128) :
    String.ofList (s.toUTF8.toList.map fun b => Char.ofNat b.toNat) = s := by
  have hchars : s.toList.map ((fun b => Char.ofNat b.toNat) ∘ Char.toUInt8) = s.toList :=
    List.map_congr_left (fun c hc => ofNat_toUInt8 (h c hc)) |>.trans (List.map_id _)
  rw [utf8_ascii h, List.map_map, hchars, String.ofList_toList]

theorem lt_of_utf8_lt {s : String} (h : ∀ b ∈ s.toUTF8.toList, b < 128) : ∀ c ∈ s.toList, c.toNat < 128 := by
  intro c hc
  rcases Nat.lt_or_ge c.toNat 128 with hlow | hhigh
  · exact hlow
  · obtain ⟨b, hb⟩ := List.exists_mem_of_ne_nil _ (String.utf8EncodeChar_ne_nil (c := c))
    have hmem : b ∈ s.toUTF8.toList := by
      rw [utf8_toList]
      exact List.mem_flatMap.2 ⟨c, hc, hb⟩
    exact absurd (h b hmem) (UInt8.not_lt.2 (utf8EncodeChar_high hhigh b hb))

end Fusions.Library
