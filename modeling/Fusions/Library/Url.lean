import Mathlib.Data.List.TakeWhile
import Fusions.Library.Percent
import Fusions.Library.Separated

/-! URLs in bytes: a fragment from the first '#' on, a query from the first '?' on, and parameters between '&'. -/
namespace Fusions.Library

def before (sep : UInt8) (bytes : List UInt8) : List UInt8 := bytes.takeWhile (· != sep)

def after (sep : UInt8) (bytes : List UInt8) : List UInt8 := (bytes.dropWhile (· != sep)).drop 1

/-- The path, with what stands before it, and the query. -/
structure SplitUrl where
  path : List UInt8
  query : List UInt8

def splitUrl (url : List UInt8) : SplitUrl := ⟨before 63 (before 35 url), after 63 (before 35 url)⟩

/-- A name and a value around the first '='. -/
def readParameter (part : List UInt8) : List UInt8 × List UInt8 :=
  (percentDecode (before 61 part), percentDecode (after 61 part))

def parameters (query : List UInt8) : List (List UInt8 × List UInt8) := (query.splitOn 38).map readParameter

/-! What decoding changes. -/

def hasTriplet : List UInt8 → Bool
  | [] => false
  | b :: bytes => startsTriplet (b :: bytes) || hasTriplet bytes

theorem length_percentDecode_le (bytes : List UInt8) : (percentDecode bytes).length ≤ bytes.length := by
  induction bytes using triplet_induction with
  | nil => exact Nat.le_refl 0
  | cons b bytes hb ih =>
    rw [percentDecode_cons hb, List.length_cons, List.length_cons]
    omega
  | triplet h l high low rest hh hl ih =>
    rw [percentDecode_of_digits hh hl, List.length_cons, List.length_cons, List.length_cons, List.length_cons]
    omega

theorem percentDecode_of_plain {bytes : List UInt8} (h : hasTriplet bytes = false) : percentDecode bytes = bytes := by
  induction bytes with
  | nil => rfl
  | cons b bytes ih =>
    rw [hasTriplet, Bool.or_eq_false_iff] at h
    rw [percentDecode_cons h.1, ih h.2]

/-- A triplet makes the decoded bytes fewer. -/
theorem length_percentDecode_lt {bytes : List UInt8} (h : hasTriplet bytes = true) :
    (percentDecode bytes).length < bytes.length := by
  induction bytes using triplet_induction with
  | nil => cases h
  | cons b bytes hb ih =>
    rw [hasTriplet, hb, Bool.false_or] at h
    rw [percentDecode_cons hb, List.length_cons, List.length_cons]
    exact Nat.succ_lt_succ (ih h)
  | triplet h l high low rest hh hl ih =>
    have hle := length_percentDecode_le rest
    rw [percentDecode_of_digits hh hl, List.length_cons, List.length_cons, List.length_cons, List.length_cons]
    omega

theorem percentDecode_eq_self {bytes : List UInt8} : percentDecode bytes = bytes ↔ hasTriplet bytes = false := by
  refine ⟨fun h => Bool.eq_false_iff.2 fun htriplet => ?_, percentDecode_of_plain⟩
  have hlt := length_percentDecode_lt htriplet
  rw [h] at hlt
  exact Nat.lt_irrefl _ hlt

/-- What is cut at some bytes and decoded is read back exactly when it has none of them and no triplet. -/
theorem percentDecode_takeWhile {p : UInt8 → Bool} {bytes rest : List UInt8} (hrest : ∀ b ∈ rest.head?, p b = false) :
    percentDecode ((bytes ++ rest).takeWhile p) = bytes ↔
      (∀ b ∈ bytes, p b = true) ∧ hasTriplet bytes = false := by
  have hnil : rest.takeWhile p = [] := by
    cases rest with
    | nil => rfl
    | cons b rest => exact List.takeWhile_cons_of_neg (by rw [hrest b rfl]; exact Bool.false_ne_true)
  by_cases hall : ∀ b ∈ bytes, p b = true
  · rw [List.takeWhile_append_of_pos hall, hnil, List.append_nil, percentDecode_eq_self]
    exact (and_iff_right hall).symm
  · refine ⟨fun h => ?_, fun h => absurd h.1 hall⟩
    have hne : (bytes.takeWhile p).length ≠ bytes.length := fun heq =>
      hall (List.takeWhile_eq_self_iff.1 ((List.takeWhile_prefix p).eq_of_length heq))
    have hle : (bytes.takeWhile p).length ≤ bytes.length := (List.takeWhile_prefix p).length_le
    have hdecoded := length_percentDecode_le (bytes.takeWhile p)
    rw [List.takeWhile_append, if_neg hne] at h
    rw [h] at hdecoded
    omega

/-! The parts of a URL that is put together. -/

/-- The bytes that end neither the path nor the URL before its fragment. -/
def isPathByte (b : UInt8) : Bool := b != 63 && b != 35

theorem path_splitUrl (url : List UInt8) : (splitUrl url).path = url.takeWhile isPathByte := by
  change (url.takeWhile (· != 35)).takeWhile (· != 63) = _
  rw [List.takeWhile_takeWhile]
  exact congrArg (List.takeWhile · url) (funext fun b => by simp [isPathByte, bne, beq_eq_decide])

theorem ne_of_notMem {sep : UInt8} {bytes : List UInt8} (h : sep ∉ bytes) : ∀ b ∈ bytes, (b != sep) = true := by
  intro b hb
  rw [bne_iff_ne]
  rintro rfl
  exact h hb

theorem before_of_notMem {sep : UInt8} {bytes : List UInt8} (h : sep ∉ bytes) (rest : List UInt8) :
    before sep (bytes ++ rest) = bytes ++ before sep rest :=
  List.takeWhile_append_of_pos (ne_of_notMem h)

theorem after_of_notMem {sep : UInt8} {bytes : List UInt8} (h : sep ∉ bytes) (rest : List UInt8) :
    after sep (bytes ++ sep :: rest) = rest := by
  rw [after, List.dropWhile_append_of_pos (ne_of_notMem h), List.dropWhile_cons_of_neg (by simp)]
  rfl

theorem query_splitUrl {path query : List UInt8} (hpath : ∀ b ∈ path, isPathByte b = true) :
    (splitUrl (path ++ 63 :: query)).query = before 35 query := by
  have hquery : 63 ∉ path := fun h => absurd (hpath 63 h) (by decide)
  have hfragment : 35 ∉ path := fun h => absurd (hpath 35 h) (by decide)
  change after 63 (before 35 (path ++ 63 :: query)) = _
  rw [before_of_notMem hfragment, show before 35 (63 :: query) = 63 :: before 35 query from rfl,
    after_of_notMem hquery]

theorem readParameter_eq {name : List UInt8} (hname : 61 ∉ name) (value : List UInt8) :
    readParameter (name ++ 61 :: value) = (percentDecode name, percentDecode value) := by
  rw [readParameter, before_of_notMem hname, after_of_notMem hname]
  simp [before]

theorem parameters_cons {part : List UInt8} (hpart : 38 ∉ part) (rest : List UInt8) :
    parameters (part ++ 38 :: rest) = readParameter part :: parameters rest := by
  rw [parameters, List.splitOn_append_cons_self_of_not_mem hpart]
  rfl

theorem parameters_of_notMem {part : List UInt8} (hpart : 38 ∉ part) : parameters part = [readParameter part] := by
  rw [parameters, List.splitOn_eq_splitOnP, List.splitOnP_eq_singleton]
  · rfl
  · intro b hb
    exact beq_false_of_ne (bne_iff_ne.1 (ne_of_notMem hpart b hb))

/-- The first parameter ends at the first '&'. -/
theorem parameters_head (query : List UInt8) : ∃ rest, parameters query = readParameter (before 38 query) :: rest := by
  have hbefore : 38 ∉ before 38 query := fun h => absurd (List.mem_takeWhile_imp h) (by simp)
  have hquery : before 38 query ++ query.dropWhile (· != 38) = query := List.takeWhile_append_dropWhile
  cases hafter : query.dropWhile (· != 38) with
  | nil =>
    rw [hafter, List.append_nil] at hquery
    rw [hquery] at hbefore ⊢
    exact ⟨[], parameters_of_notMem hbefore⟩
  | cons b rest =>
    have hb : b = 38 := by
      have hhead := List.head?_dropWhile_not (fun b : UInt8 => b != 38) query
      rw [hafter] at hhead
      simpa using hhead
    refine ⟨parameters rest, ?_⟩
    conv_lhs => rw [← hquery, hafter, hb]
    exact parameters_cons hbefore rest

end Fusions.Library
