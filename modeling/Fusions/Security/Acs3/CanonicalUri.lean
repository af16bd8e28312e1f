import Fusions.Library.Find
import Fusions.Library.Percent
import Fusions.Library.Utf8

/-! The canonical path of an ACS3 request. -/
namespace Fusions.Security.Acs3
open Fusions.Library

/-- The bytes that RFC 3986 reserves for nothing. -/
def isUnreserved (b : UInt8) : Bool :=
  (48 ≤ b && b ≤ 57) || (65 ≤ b && b ≤ 90) || (97 ≤ b && b ≤ 122) || b == 45 || b == 95 || b == 46 || b == 126

/-- `&s[i..j]`, which panics inside a character. -/
def slice (s : String) (i j : Nat) : Option (List Char) :=
  (dropBytes s.toList i).bind fun rest => takeBytes rest (j - i)

/-- A byte that is no part of an escape. -/
def encodeByte (b : UInt8) : List Char :=
  if isUnreserved b then [Char.ofNat b.toNat] else (percentTriplet b).map fun b => Char.ofNat b.toNat

/-- The loop of `encode_path_segment`, from the byte at `i` on. -/
def encodeFrom (seg : String) : Nat → List UInt8 → Option (List Char)
  | _, [] => some []
  | _, [b] => some (encodeByte b)
  | _, [b, c] => some (encodeByte b ++ encodeByte c)
  | i, b :: h :: l :: rest =>
    if b == percent && (hexValue h).isSome && (hexValue l).isSome then
      (slice seg i (i + 3)).bind fun escape => (encodeFrom seg (i + 3) rest).map (escape ++ ·)
    else (encodeFrom seg (i + 1) (h :: l :: rest)).map (encodeByte b ++ ·)

def encodePathSegment (seg : String) : Option String := (encodeFrom seg 0 seg.toUTF8.toList).map String.ofList

/-- The empty path stands for the root. -/
def orRoot (path : String) : String := if path.isEmpty then "/" else path

def canonicalizeUri (path : String) : Option String :=
  (((orRoot path).toList.splitOn '/').mapM fun seg => encodePathSegment (String.ofList seg)).map ("/".intercalate ·)

section
variable {s seg : String}

/-- A byte of ASCII is at the start of its character. -/
theorem dropBytes_eq {cs : List Char} {i : Nat} {b : UInt8} {rest : List UInt8} (hb : b < 128)
    (h : (cs.flatMap String.utf8EncodeChar).drop i = b :: rest) :
    ∃ cs', dropBytes cs i = some cs' ∧ cs'.flatMap String.utf8EncodeChar = b :: rest := by
  induction cs generalizing i with
  | nil => simp at h
  | cons c cs ih =>
    cases i with
    | zero => exact ⟨c :: cs, by simp [dropBytes], by simpa using h⟩
    | succ n =>
      rw [List.flatMap_cons] at h
      rcases Nat.lt_or_ge (n + 1) c.utf8Size with hinside | hafter
      · have hlength : n + 1 < (String.utf8EncodeChar c).length := by rwa [String.length_utf8EncodeChar]
        have hmem : b ∈ String.utf8EncodeChar c := by
          rw [List.drop_append_of_le_length (Nat.le_of_lt hlength), List.drop_eq_getElem_cons hlength] at h
          obtain ⟨rfl, -⟩ := List.cons.inj h
          exact List.getElem_mem _
        have hhigh : 128 ≤ c.toNat := by
          have hone : c.utf8Size ≠ 1 := by omega
          rw [Ne, utf8Size_eq_one] at hone
          omega
        exact absurd hb (UInt8.not_lt.2 (utf8EncodeChar_high hhigh b hmem))
      · rw [List.drop_append, List.drop_eq_nil_of_le (by rwa [String.length_utf8EncodeChar]), List.nil_append,
          String.length_utf8EncodeChar] at h
        obtain ⟨cs', hdrop, hbytes⟩ := ih h
        exact ⟨cs', by simp [dropBytes, hafter, hdrop], hbytes⟩

/-- The characters that begin with a byte of ASCII begin with its character. -/
theorem head_ascii {cs : List Char} {b : UInt8} {rest : List UInt8} (hb : b < 128)
    (h : cs.flatMap String.utf8EncodeChar = b :: rest) :
    ∃ cs', cs = Char.ofNat b.toNat :: cs' ∧ cs'.flatMap String.utf8EncodeChar = rest := by
  cases cs with
  | nil => simp at h
  | cons c cs =>
    rw [List.flatMap_cons] at h
    rcases Nat.lt_or_ge c.toNat 128 with hlow | hhigh
    · rw [utf8EncodeChar_ascii hlow, List.singleton_append] at h
      obtain ⟨rfl, hrest⟩ := List.cons.inj h
      exact ⟨cs, by rw [ofNat_toUInt8 hlow], hrest⟩
    · obtain ⟨d, ds, hd⟩ := List.exists_cons_of_ne_nil (String.utf8EncodeChar_ne_nil (c := c))
      rw [hd, List.cons_append] at h
      obtain ⟨rfl, -⟩ := List.cons.inj h
      exact absurd hb (UInt8.not_lt.2 (utf8EncodeChar_high hhigh d (by simp [hd])))

/-- Three characters of ASCII are sliced where they are. -/
theorem slice_ascii {i : Nat} {b h l : UInt8} {rest : List UInt8} (hb : b < 128) (hh : h < 128) (hl : l < 128)
    (hat : s.toUTF8.toList.drop i = b :: h :: l :: rest) :
    slice s i (i + 3) = some ([b, h, l].map fun b => Char.ofNat b.toNat) := by
  rw [utf8_toList] at hat
  obtain ⟨cs₀, hdrop, hbytes₀⟩ := dropBytes_eq hb hat
  obtain ⟨cs₁, rfl, hbytes₁⟩ := head_ascii hb hbytes₀
  obtain ⟨cs₂, rfl, hbytes₂⟩ := head_ascii hh hbytes₁
  obtain ⟨cs₃, rfl, -⟩ := head_ascii hl hbytes₂
  have hone {b : UInt8} (hb : b < 128) : (Char.ofNat b.toNat).utf8Size = 1 := by
    rw [utf8Size_eq_one, toNat_ofNat_byte]
    exact UInt8.lt_iff_toNat_lt.1 hb
  simp [slice, hdrop, takeBytes, hone hb, hone hh, hone hl]

theorem encodeByte_eq (b : UInt8) : encodeByte b = (escapeByte isUnreserved b).map fun b => Char.ofNat b.toNat := by
  unfold encodeByte escapeByte
  split <;> rfl

theorem encodeFrom_cons {b : UInt8} {bytes : List UInt8} (h : startsTriplet (b :: bytes) = false) (i : Nat) :
    encodeFrom seg i (b :: bytes) = (encodeFrom seg (i + 1) bytes).map (encodeByte b ++ ·) := by
  match bytes with
  | [] => simp [encodeFrom]
  | [c] => simp [encodeFrom]
  | h' :: l :: rest => exact if_neg (by simpa [startsTriplet] using h)

theorem encodeFrom_triplet {h l high low : UInt8} (hh : hexValue h = some high) (hl : hexValue l = some low) (i : Nat)
    (rest : List UInt8) : encodeFrom seg i (percent :: h :: l :: rest) =
      (slice seg i (i + 3)).bind fun escape => (encodeFrom seg (i + 3) rest).map (escape ++ ·) :=
  if_pos (by simp [hh, hl])

theorem encodeFrom_eq {i : Nat} {bytes : List UInt8} (hat : seg.toUTF8.toList.drop i = bytes) :
    encodeFrom seg i bytes = some ((escapeRest isUnreserved bytes).map fun b => Char.ofNat b.toNat) := by
  induction bytes using triplet_induction generalizing i with
  | nil => rfl
  | cons b bytes hb ih =>
    have hnext : seg.toUTF8.toList.drop (i + 1) = bytes := by
      rw [← List.drop_drop, hat]
      rfl
    rw [encodeFrom_cons hb, ih hnext, escapeRest_cons hb, encodeByte_eq, List.map_append]
    rfl
  | triplet h l high low rest hh hl ih =>
    have hnext : seg.toUTF8.toList.drop (i + 3) = rest := by
      rw [← List.drop_drop, hat]
      rfl
    rw [encodeFrom_triplet hh hl, slice_ascii (by decide) (lt_of_hexValue hh) (lt_of_hexValue hl) hat, ih hnext,
      escapeRest_triplet hh hl]
    rfl

theorem encodePathSegment_eq (seg : String) : encodePathSegment seg =
    some (String.ofList ((escapeRest isUnreserved seg.toUTF8.toList).map fun b => Char.ofNat b.toNat)) := by
  rw [encodePathSegment, encodeFrom_eq (List.drop_zero ..)]
  rfl

end

/-- The bytes that stay as they are in a path. -/
def keepPath (b : UInt8) : Bool := isUnreserved b || b == 47

/-- A path is escaped segment by segment, which is to say as a whole. -/
theorem escapeRest_intercalate {segs : List (List UInt8)} (hsegs : ∀ seg ∈ segs, 47 ∉ seg) :
    escapeRest keepPath ([47].intercalate segs) = [47].intercalate (segs.map (escapeRest isUnreserved)) := by
  induction segs with
  | nil => rfl
  | cons seg segs ih =>
    obtain ⟨hseg, hsegs⟩ := List.forall_mem_cons.1 hsegs
    have hcongr : escapeRest keepPath seg = escapeRest isUnreserved seg := by
      refine escapeRest_congr fun b hb => ?_
      have hne : b ≠ 47 := by
        rintro rfl
        exact hseg hb
      simp [keepPath, hne]
    cases segs with
    | nil => simp [hcongr]
    | cons next segs =>
      rw [List.intercalate_cons_cons, List.append_assoc, List.singleton_append,
        escapeRest_append (by decide) (by decide) (by decide), hcongr, ih hsegs]
      simp [List.intercalate_cons_cons]

theorem mapM_some {α β : Type} {f : α → Option β} {g : α → β} (h : ∀ a, f a = some (g a)) (l : List α) :
    l.mapM f = some (l.map g) := by
  induction l with
  | nil => rfl
  | cons a l ih => simp [h, ih]

/-- The bytes of an escaped segment are below 128, and none is a slash. -/
theorem escaped_segment {bytes : List UInt8} :
    ∀ b ∈ escapeRest isUnreserved bytes, b < 128 ∧ b ≠ 47 := by
  intro b hb
  have hkept : ∀ n : Nat, n < 256 → isUnreserved (UInt8.ofNat n) = true ∨ UInt8.ofNat n = percent ∨
      (hexValue (UInt8.ofNat n)).isSome = true → UInt8.ofNat n < 128 ∧ UInt8.ofNat n ≠ 47 := by
    decide +kernel
  exact forall_byte (P := fun b => isUnreserved b = true ∨ b = percent ∨ (hexValue b).isSome = true →
    b < 128 ∧ b ≠ 47) hkept b ((escaped_escapeRest bytes).all b hb)

def encodedSegment (seg : List Char) : String :=
  String.ofList ((escapeRest isUnreserved (String.ofList seg).toUTF8.toList).map fun b => Char.ofNat b.toNat)

theorem canonicalizeUri_eq (path : String) : canonicalizeUri path =
    some ("/".intercalate (((orRoot path).toList.splitOn '/').map encodedSegment)) := by
  rw [canonicalizeUri, mapM_some fun seg => encodePathSegment_eq _]
  rfl

theorem encodedSegment_bytes (seg : List Char) :
    (encodedSegment seg).toUTF8.toList = escapeRest isUnreserved (String.ofList seg).toUTF8.toList :=
  utf8_ofList_bytes fun b hb => (escaped_segment b hb).1

theorem slash_bytes : ("/" : String).toUTF8.toList = [47] := utf8_ascii (forall_mem_of_all (by decide))

/-- The canonical path is the path with what is not escaped yet. -/
theorem canonicalizeUri_bytes {path canonical : String} (h : canonicalizeUri path = some canonical) :
    canonical.toUTF8.toList = escapeRest keepPath (orRoot path).toUTF8.toList := by
  rw [canonicalizeUri_eq] at h
  obtain rfl := Option.some.inj h
  have hsplit : ['/'].intercalate ((orRoot path).toList.splitOn '/') = (orRoot path).toList :=
    List.intercalate_splitOn '/'
  have hpath : (orRoot path).toUTF8.toList = [47].intercalate
      (((orRoot path).toList.splitOn '/').map fun seg => (String.ofList seg).toUTF8.toList) := by
    conv_lhs => rw [utf8_toList, ← hsplit]
    simp only [flatMap_intercalate, utf8_toList, String.toList_ofList]
    rfl
  have hsegs : ∀ seg ∈ ((orRoot path).toList.splitOn '/').map fun seg => (String.ofList seg).toUTF8.toList,
      (47 : UInt8) ∉ seg := by
    rw [List.forall_mem_map]
    intro seg hseg hmem
    rw [show (47 : UInt8) = '/'.toUInt8 from rfl, mem_utf8 (by decide), String.toList_ofList] at hmem
    exact not_mem_of_mem_splitOn hseg hmem
  rw [hpath, escapeRest_intercalate hsegs, utf8_intercalate, slash_bytes, List.map_map, List.map_map]
  simp only [Function.comp_def, encodedSegment_bytes]

/-- What a canonical path has of the path. -/
structure CanonicalPath (path canonical : String) : Prop where
  escaped : Escaped keepPath canonical.toUTF8.toList
  segments : (canonical.toList.splitOn '/').length = ((orRoot path).toList.splitOn '/').length
  decoded : percentDecode canonical.toUTF8.toList = percentDecode (orRoot path).toUTF8.toList
  settled : canonicalizeUri canonical = some canonical

theorem orRoot_ne_empty (path : String) : orRoot path ≠ "" := by
  intro h
  unfold orRoot at h
  split at h
  · exact absurd h (by decide)
  · next hempty => exact hempty (String.isEmpty_iff.2 h)

/-- As many segments as the path has. -/
theorem canonicalizeUri_segments {path canonical : String} (h : canonicalizeUri path = some canonical) :
    (canonical.toList.splitOn '/').length = ((orRoot path).toList.splitOn '/').length := by
  rw [canonicalizeUri_eq] at h
  obtain rfl := Option.some.inj h
  rw [String.toList_intercalate, show ("/" : String).toList = ['/'] from rfl, List.splitOn_intercalate]
  · simp
  · simp only [List.map_map, List.forall_mem_map, Function.comp_apply]
    intro seg _ hmem
    rw [← mem_utf8 (by decide), encodedSegment_bytes] at hmem
    exact (escaped_segment _ hmem).2 rfl
  · simp [List.splitOn_ne_nil]

/-- The path is never sliced inside a character, and its canonical form keeps what it means. -/
theorem canonicalizeUri_canonical (path : String) :
    ∃ canonical, canonicalizeUri path = some canonical ∧ CanonicalPath path canonical := by
  obtain ⟨canonical, hcanonical⟩ : ∃ canonical, canonicalizeUri path = some canonical := ⟨_, canonicalizeUri_eq path⟩
  have hbytes := canonicalizeUri_bytes hcanonical
  refine ⟨canonical, hcanonical, ?_, canonicalizeUri_segments hcanonical, ?_, ?_⟩
  · rw [hbytes]
    exact escaped_escapeRest _
  · rw [hbytes, percentDecode_escapeRest (by decide)]
  · obtain ⟨twice, htwice⟩ : ∃ twice, canonicalizeUri canonical = some twice := ⟨_, canonicalizeUri_eq canonical⟩
    have hroot : orRoot canonical = canonical := by
      refine if_neg fun hempty => orRoot_ne_empty path ?_
      rw [String.isEmpty_iff.1 hempty, utf8_empty] at hbytes
      exact utf8_injective ((escapeRest_eq_nil hbytes.symm).trans utf8_empty.symm)
    have hsame : twice.toUTF8.toList = canonical.toUTF8.toList := by
      rw [canonicalizeUri_bytes htwice, hroot, hbytes, escapeRest_escapeRest (by decide)]
    rw [htwice, utf8_injective hsame]

end Fusions.Security.Acs3
