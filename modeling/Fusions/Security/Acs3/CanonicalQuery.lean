import Mathlib.Data.List.Sort
import Mathlib.Data.String.Basic
import Fusions.Security.Acs3.CanonicalUri

/-! The canonical query of an ACS3 request. -/
namespace Fusions.Security.Acs3
open Fusions.Library

/-- `utf8_percent_encode` with `ACS3_ENCODE_SET`. -/
def encodeText (s : String) : String :=
  String.ofList ((percentEncode isUnreserved s.toUTF8.toList).map fun b => Char.ofNat b.toNat)

/-- `splitn(2, '=')`, with an empty value where there is no sign. -/
def splitPair (pair : List Char) : String × String :=
  (String.ofList (pair.takeWhile (· != '=')), String.ofList ((pair.dropWhile (· != '=')).drop 1))

def queryPairs (query : String) : List (String × String) :=
  ((query.toList.splitOn '&').filter fun pair => !pair.isEmpty).map splitPair

/-- By key, then by value. -/
def pairLe (a b : String × String) : Bool := a.1 < b.1 || (a.1 == b.1 && a.2 ≤ b.2)

def joinPairs (pairs : List (String × String)) : String :=
  "&".intercalate (pairs.map fun pair => pair.1 ++ "=" ++ pair.2)

def encodePair (pair : String × String) : String × String := (encodeText pair.1, encodeText pair.2)

def canonicalizeQuery (query : String) : String :=
  if query.isEmpty then ""
  else joinPairs (((queryPairs query).mergeSort pairLe).map encodePair)

/-- The query of a URI with these parameters. -/
def uriQuery (pairs : List (String × String)) : String := joinPairs (pairs.map encodePair)

theorem canonicalizeQuery_eq (query : String) :
    canonicalizeQuery query = joinPairs (((queryPairs query).mergeSort pairLe).map encodePair) := by
  unfold canonicalizeQuery
  split
  · next hempty =>
    rw [String.isEmpty_iff.1 hempty, show queryPairs "" = [] from rfl, List.mergeSort_nil]
    rfl
  · rfl

/-! The order of pairs. -/

theorem pairLe_iff {a b : String × String} : pairLe a b = true ↔ a.1 < b.1 ∨ a.1 = b.1 ∧ a.2 ≤ b.2 := by
  simp [pairLe]

theorem pairLe_trans (a b c : String × String) (hab : pairLe a b = true) (hbc : pairLe b c = true) :
    pairLe a c = true := by
  rw [pairLe_iff] at hab hbc ⊢
  rcases hab with hab | ⟨hab, hab'⟩ <;> rcases hbc with hbc | ⟨hbc, hbc'⟩
  · exact .inl (lt_trans hab hbc)
  · exact .inl (hbc ▸ hab)
  · exact .inl (hab ▸ hbc)
  · exact .inr ⟨hab.trans hbc, le_trans hab' hbc'⟩

theorem pairLe_total (a b : String × String) : (pairLe a b || pairLe b a) = true := by
  rw [Bool.or_eq_true, pairLe_iff, pairLe_iff]
  rcases lt_trichotomy a.1 b.1 with hlt | heq | hgt
  · exact .inl (.inl hlt)
  · rcases le_total a.2 b.2 with hle | hge
    · exact .inl (.inr ⟨heq, hle⟩)
    · exact .inr (.inr ⟨heq.symm, hge⟩)
  · exact .inr (.inl hgt)

theorem pairLe_antisymm {a b : String × String} (hab : pairLe a b = true) (hba : pairLe b a = true) : a = b := by
  rw [pairLe_iff] at hab hba
  rcases hab with hab | ⟨hab, hab'⟩
  · rcases hba with hba | ⟨hba, -⟩
    · exact absurd hab (lt_asymm hba)
    · exact absurd hab (hba ▸ lt_irrefl _)
  · rcases hba with hba | ⟨-, hba'⟩
    · exact absurd hba (hab ▸ lt_irrefl _)
    · exact Prod.ext hab (le_antisymm hab' hba')

theorem pairwise_sort (pairs : List (String × String)) :
    (pairs.mergeSort pairLe).Pairwise fun a b => pairLe a b = true :=
  List.pairwise_mergeSort pairLe_trans pairLe_total pairs

theorem sort_eq_of_perm {pairs pairs' : List (String × String)} (h : pairs.Perm pairs') :
    pairs.mergeSort pairLe = pairs'.mergeSort pairLe :=
  List.Perm.eq_of_pairwise (fun _ _ _ _ => pairLe_antisymm) (pairwise_sort pairs) (pairwise_sort pairs')
    ((List.mergeSort_perm pairs _).trans (h.trans (List.mergeSort_perm pairs' _).symm))

/-! Encoded texts. -/

theorem unreserved_byte {b : UInt8} (hb : isUnreserved b = true ∨ b = percent ∨ (hexValue b).isSome = true) :
    b < 128 ∧ b ≠ 38 ∧ b ≠ 61 := by
  have hall : ∀ n : Nat, n < 256 → isUnreserved (UInt8.ofNat n) = true ∨ UInt8.ofNat n = percent ∨
      (hexValue (UInt8.ofNat n)).isSome = true →
      UInt8.ofNat n < 128 ∧ UInt8.ofNat n ≠ 38 ∧ UInt8.ofNat n ≠ 61 := by
    decide +kernel
  exact forall_byte (P := fun b => isUnreserved b = true ∨ b = percent ∨ (hexValue b).isSome = true →
    b < 128 ∧ b ≠ 38 ∧ b ≠ 61) hall b hb

theorem encoded_byte {bytes : List UInt8} : ∀ b ∈ percentEncode isUnreserved bytes, b < 128 ∧ b ≠ 38 ∧ b ≠ 61 := by
  have hkeep : ∀ b, isUnreserved b = true → (b < 128 && b != 38 && b != 61) = true :=
    fun b hb => by simpa [and_assoc] using unreserved_byte (.inl hb)
  have hdigit : ∀ d, d < 16 → (hexUpper d < 128 && hexUpper d != 38 && hexUpper d != 61) = true :=
    fun d hd => by simpa [and_assoc] using unreserved_byte (.inr (.inr (by rw [hexValue_hexUpper hd]; rfl)))
  intro b hb
  simpa [and_assoc] using percentEncode_all hkeep (by decide) hdigit bytes b hb

theorem encodeText_bytes (s : String) :
    (encodeText s).toUTF8.toList = percentEncode isUnreserved s.toUTF8.toList :=
  utf8_ofList_bytes fun b hb => (encoded_byte b hb).1

/-- Unreserved throughout. -/
def Unreserved (s : String) : Prop := ∀ b ∈ s.toUTF8.toList, isUnreserved b = true

theorem encodeText_eq_self {s : String} : encodeText s = s ↔ Unreserved s := by
  rw [Unreserved, ← percentEncode_eq_self, ← encodeText_bytes]
  exact ⟨fun h => by rw [h], utf8_injective⟩

theorem encodeText_injective {s t : String} (h : encodeText s = encodeText t) : s = t := by
  have hpercent : isUnreserved percent = false := by decide
  have hbytes := congrArg (fun s => percentDecode s.toUTF8.toList) h
  simp only [encodeText_bytes, percentDecode_percentEncode hpercent] at hbytes
  exact utf8_injective hbytes

/-- Without the separators of a query. -/
structure PlainPair (pair : String × String) : Prop where
  key : '&' ∉ pair.1.toList ∧ '=' ∉ pair.1.toList
  value : '&' ∉ pair.2.toList

theorem plain_encodeText (s : String) : '&' ∉ (encodeText s).toList ∧ '=' ∉ (encodeText s).toList := by
  constructor
  · intro hmem
    rw [← mem_utf8 (by decide), encodeText_bytes] at hmem
    exact (encoded_byte _ hmem).2.1 rfl
  · intro hmem
    rw [← mem_utf8 (by decide), encodeText_bytes] at hmem
    exact (encoded_byte _ hmem).2.2 rfl

theorem plain_encodePair (pair : String × String) : PlainPair (encodePair pair) :=
  ⟨plain_encodeText _, (plain_encodeText _).1⟩

theorem splitPair_join {pair : String × String} (h : '=' ∉ pair.1.toList) :
    splitPair (pair.1.toList ++ '=' :: pair.2.toList) = pair := by
  have hkey : ∀ c ∈ pair.1.toList, (c != '=') = true := by
    intro c hc
    simp only [bne_iff_ne, ne_eq]
    rintro rfl
    exact h hc
  rw [splitPair, List.takeWhile_append_of_pos hkey, List.dropWhile_append_of_pos hkey]
  simp

theorem joinPairs_toList (pairs : List (String × String)) : (joinPairs pairs).toList =
    ['&'].intercalate (pairs.map fun pair => pair.1.toList ++ '=' :: pair.2.toList) := by
  rw [joinPairs, String.toList_intercalate, List.map_map]
  simp only [Function.comp_def, String.toList_append, List.append_assoc]
  rfl

/-- What is joined is split again. -/
theorem queryPairs_joinPairs {pairs : List (String × String)} (h : ∀ pair ∈ pairs, PlainPair pair) :
    queryPairs (joinPairs pairs) = pairs := by
  by_cases hne : pairs = []
  · rw [hne]
    rfl
  · have hparts : ∀ part ∈ pairs.map fun pair => pair.1.toList ++ '=' :: pair.2.toList, '&' ∉ part := by
      rw [List.forall_mem_map]
      intro pair hpair
      simp [(h pair hpair).key.1, (h pair hpair).value]
    rw [queryPairs, joinPairs_toList, List.splitOn_intercalate _ hparts (by simpa using hne), List.filter_eq_self.2,
      List.map_map]
    · conv_rhs => rw [← List.map_id pairs]
      exact List.map_congr_left fun pair hpair => splitPair_join (h pair hpair).key.2
    · rw [List.forall_mem_map]
      intro pair _
      simp

/-! The canonical form of a query that a URI holds. -/

theorem canonicalizeQuery_joinPairs {pairs : List (String × String)} (h : ∀ pair ∈ pairs, PlainPair pair) :
    canonicalizeQuery (joinPairs pairs) = joinPairs ((pairs.mergeSort pairLe).map encodePair) := by
  rw [canonicalizeQuery_eq, queryPairs_joinPairs h]

theorem plain_map_encodePair (pairs : List (String × String)) : ∀ pair ∈ pairs.map encodePair, PlainPair pair :=
  List.forall_mem_map.2 fun pair _ => plain_encodePair pair

theorem joinPairs_injective {pairs pairs' : List (String × String)} (h : ∀ pair ∈ pairs, PlainPair pair)
    (h' : ∀ pair ∈ pairs', PlainPair pair) (heq : joinPairs pairs = joinPairs pairs') : pairs = pairs' := by
  rw [← queryPairs_joinPairs h, heq, queryPairs_joinPairs h']

/-- Encoded once, sorted, the same for every order of the parameters, and in its final form. -/
structure EncodedOnce (pairs : List (String × String)) : Prop where
  once : canonicalizeQuery (uriQuery pairs) = joinPairs ((pairs.map encodePair).mergeSort pairLe)
  permuted : ∀ pairs', pairs'.Perm pairs → canonicalizeQuery (uriQuery pairs') = canonicalizeQuery (uriQuery pairs)
  settled : canonicalizeQuery (canonicalizeQuery (uriQuery pairs)) = canonicalizeQuery (uriQuery pairs)

theorem canonicalizeQuery_uriQuery (pairs : List (String × String)) : canonicalizeQuery (uriQuery pairs) =
    joinPairs (((pairs.map encodePair).mergeSort pairLe).map encodePair) :=
  canonicalizeQuery_joinPairs (plain_map_encodePair pairs)

theorem encodePair_eq_self {pair : String × String} :
    encodePair pair = pair ↔ Unreserved pair.1 ∧ Unreserved pair.2 := by
  rw [← encodeText_eq_self, ← encodeText_eq_self]
  exact Prod.ext_iff

theorem map_encodePair_eq_self {pairs : List (String × String)} :
    pairs.map encodePair = pairs ↔ ∀ pair ∈ pairs, encodePair pair = pair := by
  conv_lhs => rw [← List.map_id pairs, List.map_map]
  exact List.map_inj_left

theorem canonicalizeQuery_perm {pairs pairs' : List (String × String)} (h : pairs'.Perm pairs) :
    canonicalizeQuery (uriQuery pairs') = canonicalizeQuery (uriQuery pairs) := by
  rw [canonicalizeQuery_uriQuery, canonicalizeQuery_uriQuery, sort_eq_of_perm (h.map encodePair)]

/-- An escape is encoded once more, so that nothing but unreserved characters is encoded once. -/
theorem unreserved_of_once {pairs : List (String × String)}
    (h : canonicalizeQuery (uriQuery pairs) = joinPairs ((pairs.map encodePair).mergeSort pairLe)) :
    ∀ pair ∈ pairs, Unreserved pair.1 ∧ Unreserved pair.2 := by
  intro pair hpair
  rw [canonicalizeQuery_uriQuery] at h
  have hplain : ∀ pair ∈ (pairs.map encodePair).mergeSort pairLe, PlainPair pair :=
    fun pair hpair => plain_map_encodePair pairs pair (List.mem_mergeSort.1 hpair)
  have hsame := map_encodePair_eq_self.1 (joinPairs_injective (plain_map_encodePair _) hplain h)
  have htwice := hsame (encodePair pair) (List.mem_mergeSort.2 (List.mem_map_of_mem hpair))
  refine encodePair_eq_self.1 (Prod.ext ?_ ?_)
  · exact encodeText_injective (congrArg Prod.fst htwice)
  · exact encodeText_injective (congrArg Prod.snd htwice)

/-- Only queries with unreserved parameters keep their form. -/
theorem encodedOnce_iff (pairs : List (String × String)) :
    EncodedOnce pairs ↔ ∀ pair ∈ pairs, Unreserved pair.1 ∧ Unreserved pair.2 := by
  refine ⟨fun w => unreserved_of_once w.once, fun h => ?_⟩
  have hself : pairs.map encodePair = pairs :=
    map_encodePair_eq_self.2 fun pair hpair => encodePair_eq_self.2 (h pair hpair)
  have hsorted : (pairs.mergeSort pairLe).map encodePair = pairs.mergeSort pairLe :=
    map_encodePair_eq_self.2 fun pair hpair => encodePair_eq_self.2 (h pair (List.mem_mergeSort.1 hpair))
  have honce : canonicalizeQuery (uriQuery pairs) = joinPairs (pairs.mergeSort pairLe) := by
    rw [canonicalizeQuery_uriQuery, hself, hsorted]
  refine ⟨by rw [honce, hself], fun _ => canonicalizeQuery_perm, ?_⟩
  have hplain : ∀ pair ∈ pairs.mergeSort pairLe, PlainPair pair := by
    rw [← hsorted]
    exact plain_map_encodePair _
  rw [honce, canonicalizeQuery_joinPairs hplain, sort_eq_of_perm (List.mergeSort_perm pairs pairLe), hsorted]

/-- A blank in a value is encoded twice. -/
theorem blank_encoded_twice : ¬ ∀ pairs : List (String × String), EncodedOnce pairs := by
  intro h
  have hreserved := unreserved_of_once (h [("k", "a b")]).once _ (List.mem_singleton_self _)
  exact absurd (hreserved.2 ' '.toUInt8 ((mem_utf8 (by decide)).2 (by decide))) (by decide)

end Fusions.Security.Acs3
