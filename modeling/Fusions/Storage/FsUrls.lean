import Fusions.Library.Url
import Fusions.Storage.Expiry
import Fusions.Storage.Hmac

/-! What the signed URLs of the local routes say when they come back. -/
namespace Fusions.Storage
open Fusions.Library

/-- The sign of a number and its digits. -/
def readSign : List Char → Bool × List Char
  | '-' :: digits => (true, digits)
  | '+' :: digits => (false, digits)
  | digits => (false, digits)

/-- `i64::from_str`. -/
def parseI64 (text : String) : Option Int64 :=
  let (negative, digits) := readSign text.toList
  let magnitude : Int := Nat.ofDigitChars 10 digits 0
  let value := if negative then -magnitude else magnitude
  if !digits.isEmpty && digits.all Char.isDigit && Int64.minValue.toInt ≤ value && value ≤ Int64.maxValue.toInt then
    some (.ofInt value)
  else none

/-- Bytes that are UTF-8. -/
def readText (bytes : List UInt8) : Option String := String.fromUTF8? ⟨bytes.toArray⟩

/-- What a URL of a local route carries. -/
structure FsUrl where
  key : String
  creatorId : String
  token : String
  expires : Int64
  downloadFilename : Option String
  deriving DecidableEq

/-- The key follows the base, and each of the parameters is taken where it comes first. -/
def readFsUrl (base url : String) : Option FsUrl := do
  let parts := splitUrl url.toUTF8.toList
  let param (name : String) := (parameters parts.query).lookup name.toUTF8.toList
  let key ← (base ++ "/").toUTF8.toList.isPrefixOf? parts.path
  let key ← readText (percentDecode key)
  let token ← readText (← param "token")
  let expires ← parseI64 (← readText (← param "expires"))
  let creatorId ← readText (← param "creator_id")
  match param "download_filename" with
  | some name => return ⟨key, creatorId, token, expires, some (← readText name)⟩
  | none => return ⟨key, creatorId, token, expires, none⟩

theorem readText_eq_some {bytes : List UInt8} {s : String} : readText bytes = some s ↔ bytes = s.toUTF8.toList := by
  constructor
  · intro h
    unfold readText String.fromUTF8? at h
    split at h
    · obtain rfl := Option.some.inj h
      rw [byteArray_toList]
      rfl
    · cases h
  · rintro rfl
    exact fromUTF8?_utf8 s

theorem isPrefixOf?_eq_some {l m rest : List UInt8} : l.isPrefixOf? m = some rest ↔ m = l ++ rest := by
  induction l generalizing m with
  | nil => exact Option.some_inj
  | cons x l ih =>
    cases m with
    | nil => simp [List.isPrefixOf?]
    | cons y m =>
      rw [List.isPrefixOf?]
      by_cases hxy : x = y
      · simp [hxy, ih]
      · simp [hxy, Ne.symm hxy]

theorem readSign_digits {digits : List Char} (h : ∀ d ∈ digits, d.isDigit = true) :
    readSign digits = (false, digits) := by
  unfold readSign
  split
  · exact absurd (h '-' List.mem_cons_self) (by decide)
  · exact absurd (h '+' List.mem_cons_self) (by decide)
  · rfl

theorem parseI64_of_digits {text : String} {negative : Bool} {digits : List Char}
    (htext : readSign text.toList = (negative, digits)) (hne : digits ≠ [])
    (hdigits : ∀ d ∈ digits, d.isDigit = true) {n : Int64}
    (hvalue : (if negative then -(Nat.ofDigitChars 10 digits 0 : Int) else Nat.ofDigitChars 10 digits 0) = n.toInt) :
    parseI64 text = some n := by
  have hrange : (!digits.isEmpty && digits.all Char.isDigit && Int64.minValue.toInt ≤ n.toInt &&
      n.toInt ≤ Int64.maxValue.toInt) = true := by
    simp only [Bool.and_eq_true, Bool.not_eq_true', List.isEmpty_eq_false_iff, List.all_eq_true, decide_eq_true_eq]
    exact ⟨⟨⟨hne, hdigits⟩, n.minValue_le_toInt⟩, n.toInt_le⟩
  unfold parseI64
  rw [htext]
  dsimp only
  rw [hvalue, if_pos hrange, Int64.ofInt_toInt]

theorem parseI64_toString (n : Int64) : parseI64 (toString n) = some n := by
  have hdigits : ∀ m, ∀ d ∈ Nat.toDigits 10 m, d.isDigit = true := fun m d hd =>
    Nat.isDigit_of_mem_toDigits (by decide) (by decide) hd
  change parseI64 (toString n.toInt) = some n
  rcases Hetuflow.Json.int_text n.toInt with ⟨htext, hsign⟩ | ⟨htext, hsign⟩
  · have hread : readSign (toString n.toInt).toList = (false, Nat.toDigits 10 n.toInt.toNat) := by
      rw [htext, readSign_digits (hdigits _)]
    refine parseI64_of_digits hread Nat.toDigits_ne_nil (hdigits _) ?_
    rw [Nat.ofDigitChars_ten_toDigits]
    exact Int.toNat_of_nonneg hsign
  · have hread : readSign (toString n.toInt).toList = (true, Nat.toDigits 10 (-n.toInt).toNat) := by
      rw [htext]
      rfl
    refine parseI64_of_digits hread Nat.toDigits_ne_nil (hdigits _) ?_
    rw [Nat.ofDigitChars_ten_toDigits, if_pos rfl]
    omega

/-! The parts of a signed URL. -/

theorem hexValue_of_hexDecode {bytes : List UInt8} (h : (hexDecode bytes).isSome = true) :
    ∀ b ∈ bytes, (hexValue b).isSome = true := by
  induction bytes using hexDecode.induct with
  | case1 => simp
  | case2 => cases h
  | case3 high low rest h' l' bytes' hbytes hlow hhigh ih =>
    simp only [List.forall_mem_cons]
    exact ⟨Option.isSome_of_eq_some hhigh, Option.isSome_of_eq_some hlow, ih (Option.isSome_of_eq_some hbytes)⟩
  | case4 high low rest hnone ih =>
    rw [hexDecode] at h
    split at h
    · next hhigh hlow hbytes => exact absurd hbytes (hnone _ _ _ hhigh hlow)
    · cases h

/-- A byte that no separator of a URL is. -/
structure PlainByte (b : UInt8) : Prop where
  path : isPathByte b = true
  amp : b ≠ 38
  equals : b ≠ 61
  percent : b ≠ percent

theorem plainByte_hexValue {b : UInt8} (h : (hexValue b).isSome = true) : PlainByte b := by
  have hall : ∀ n : Nat, n < 256 → (hexValue (UInt8.ofNat n)).isSome = true →
      isPathByte (UInt8.ofNat n) = true ∧ UInt8.ofNat n ≠ 38 ∧ UInt8.ofNat n ≠ 61 ∧ UInt8.ofNat n ≠ percent := by
    decide +kernel
  obtain ⟨hpath, hamp, hequals, hpercent⟩ := forall_byte (P := fun b => (hexValue b).isSome = true →
    isPathByte b = true ∧ b ≠ 38 ∧ b ≠ 61 ∧ b ≠ percent) hall b h
  exact ⟨hpath, hamp, hequals, hpercent⟩

theorem plain_hmacSign (mac : Mac) (message : String) (hmacSecret : List UInt8) :
    ∀ b ∈ (hmacSign mac message hmacSecret).toUTF8.toList, PlainByte b := fun b hb =>
  plainByte_hexValue (hexValue_of_hexDecode (Option.isSome_of_eq_some (hexDecode_hmacSign mac message hmacSecret)) b hb)

theorem plain_expires (n : Int64) : ∀ b ∈ (toString n).toUTF8.toList, PlainByte b := by
  have hascii : ∀ c : Char, c.isDigit = true ∨ c = '-' → c.toNat < 128 := by
    rintro c (hdigit | rfl)
    · simp only [Char.isDigit, Bool.and_eq_true, decide_eq_true_eq] at hdigit
      exact Nat.lt_of_le_of_lt (UInt32.le_iff_toNat_le.1 hdigit.2) (by decide)
    · decide
  have hall : ∀ n : Nat, n < 128 → (Char.ofNat n).isDigit = true ∨ Char.ofNat n = '-' →
      isPathByte (Char.ofNat n).toUInt8 = true ∧ (Char.ofNat n).toUInt8 ≠ 38 ∧ (Char.ofNat n).toUInt8 ≠ 61 ∧
        (Char.ofNat n).toUInt8 ≠ percent := by
    decide +kernel
  have hchars : ∀ c ∈ (toString n).toList, c.isDigit = true ∨ c = '-' := fun _ => Hetuflow.Json.int_chars
  rw [utf8_ascii fun c hc => hascii c (hchars c hc), List.forall_mem_map]
  intro c hc
  obtain ⟨hpath, hamp, hequals, hpercent⟩ := forall_ascii (P := fun c => c.isDigit = true ∨ c = '-' →
    isPathByte c.toUInt8 = true ∧ c.toUInt8 ≠ 38 ∧ c.toUInt8 ≠ 61 ∧ c.toUInt8 ≠ percent) hall
    (hascii c (hchars c hc)) (hchars c hc)
  exact ⟨hpath, hamp, hequals, hpercent⟩

/-- The parameter for the filename, in its encoding. -/
def filenamePart (downloadFilename : Option String) : List UInt8 :=
  match downloadFilename with
  | some name => 38 :: ("download_filename".toUTF8.toList ++ 61 :: (percentEncode name).toUTF8.toList)
  | none => []

def fsQuery (token : String) (expires : Int64) (creatorId : String) (downloadFilename : Option String) : List UInt8 :=
  "token".toUTF8.toList ++ 61 :: token.toUTF8.toList ++ 38 ::
    ("expires".toUTF8.toList ++ 61 :: (toString expires).toUTF8.toList ++ 38 ::
      ("creator_id".toUTF8.toList ++ 61 :: (creatorId.toUTF8.toList ++ filenamePart downloadFilename)))

theorem fsSignedUrl_bytes (scheme authority route key token : String) (expires : Int64) (creatorId : String)
    (downloadFilename : Option String) :
    (fsSignedUrl scheme authority route key token expires creatorId downloadFilename).toUTF8.toList =
      (scheme ++ "://" ++ authority ++ route ++ "/").toUTF8.toList ++
        (key.toUTF8.toList ++ 63 :: fsQuery token expires creatorId downloadFilename) := by
  have htoken : "?token=".toUTF8.toList = 63 :: ("token".toUTF8.toList ++ [61]) := by decide +kernel
  have hexpires : "&expires=".toUTF8.toList = 38 :: ("expires".toUTF8.toList ++ [61]) := by decide +kernel
  have hcreator : "&creator_id=".toUTF8.toList = 38 :: ("creator_id".toUTF8.toList ++ [61]) := by decide +kernel
  have hname : "&download_filename=".toUTF8.toList = 38 :: ("download_filename".toUTF8.toList ++ [61]) := by
    decide +kernel
  cases downloadFilename with
  | none =>
    simp only [fsSignedUrl, fsQuery, filenamePart, toString, utf8_append, htoken, hexpires, hcreator,
      List.append_assoc, List.cons_append, List.nil_append, List.append_nil]
  | some name =>
    simp only [fsSignedUrl, fsQuery, filenamePart, toString, utf8_append, htoken, hexpires, hcreator, hname,
      List.append_assoc, List.cons_append, List.nil_append]

/-- The bytes that end no parameter. -/
def isParamByte (b : UInt8) : Bool := b != 38 && b != 35

theorem hasTriplet_of_notMem {bytes : List UInt8} (h : percent ∉ bytes) : hasTriplet bytes = false := by
  induction bytes with
  | nil => rfl
  | cons b bytes ih =>
    rw [List.mem_cons, not_or] at h
    rw [hasTriplet, startsTriplet_of_ne (Ne.symm h.1), ih h.2]
    rfl

theorem percentDecode_plain {bytes : List UInt8} (h : ∀ b ∈ bytes, PlainByte b) : percentDecode bytes = bytes :=
  percentDecode_of_plain (hasTriplet_of_notMem fun hmem => (h percent hmem).percent rfl)

/-- The names of the parameters. -/
def IsParam (name : String) : Prop := name ∈ ["token", "expires", "creator_id", "download_filename"]

theorem plain_name {name : String} (h : IsParam name) : ∀ b ∈ name.toUTF8.toList, PlainByte b := by
  have hall : ∀ name ∈ ["token", "expires", "creator_id", "download_filename"], ∀ b ∈ name.toUTF8.toList,
      isPathByte b = true ∧ b ≠ 38 ∧ b ≠ 61 ∧ b ≠ percent := by
    decide +kernel
  intro b hb
  obtain ⟨hpath, hamp, hequals, hpercent⟩ := hall name h b hb
  exact ⟨hpath, hamp, hequals, hpercent⟩

theorem isParamByte_plain {b : UInt8} (h : PlainByte b) : isParamByte b = true := by
  have hpath := h.path
  simp only [isPathByte, Bool.and_eq_true] at hpath
  rw [isParamByte, bne_iff_ne.2 h.amp, hpath.2]
  rfl

/-- A parameter under its name. -/
def namedPart (name : String) (value : List UInt8) : List UInt8 := name.toUTF8.toList ++ 61 :: value

theorem readParameter_namedPart {name : String} (h : IsParam name) (value : List UInt8) :
    readParameter (namedPart name value) = (name.toUTF8.toList, percentDecode value) := by
  rw [namedPart, readParameter_eq (fun hmem => (plain_name h 61 hmem).equals rfl), percentDecode_plain (plain_name h)]

theorem isParamByte_namedPart {name : String} (h : IsParam name) {value : List UInt8}
    (hvalue : ∀ b ∈ value, isParamByte b = true) : ∀ b ∈ namedPart name value, isParamByte b = true := by
  rw [namedPart, List.forall_mem_append, List.forall_mem_cons]
  exact ⟨fun b hb => isParamByte_plain (plain_name h b hb), by decide, hvalue⟩

theorem notMem_param {bytes : List UInt8} (h : ∀ b ∈ bytes, isParamByte b = true) : 38 ∉ bytes ∧ 35 ∉ bytes :=
  ⟨fun hmem => absurd (h 38 hmem) (by decide), fun hmem => absurd (h 35 hmem) (by decide)⟩

theorem before_namedPart {sep : UInt8} {name : String} (h : IsParam name) (hsep : isParamByte sep = false)
    (value : List UInt8) : before sep (namedPart name value) = namedPart name (before sep value) := by
  have hname : sep ∉ name.toUTF8.toList ++ [61] := by
    rw [List.mem_append, List.mem_singleton]
    rintro (hmem | rfl)
    · rw [isParamByte_plain (plain_name h sep hmem)] at hsep
      cases hsep
    · exact absurd hsep (by decide)
  have hparts (value : List UInt8) : namedPart name value = (name.toUTF8.toList ++ [61]) ++ value := by
    simp [namedPart]
  rw [hparts, hparts, before_of_notMem hname]

/-- The value of the creator in a query, before it is cut. -/
def creatorValue (creatorId : String) (downloadFilename : Option String) : List UInt8 :=
  creatorId.toUTF8.toList ++ filenamePart downloadFilename

theorem fsQuery_eq (token : String) (expires : Int64) (creatorId : String) (downloadFilename : Option String) :
    fsQuery token expires creatorId downloadFilename =
      namedPart "token" token.toUTF8.toList ++ 38 :: (namedPart "expires" (toString expires).toUTF8.toList ++
        38 :: namedPart "creator_id" (creatorValue creatorId downloadFilename)) := rfl

/-- The first two parameters are read as they were written. -/
theorem parameters_fsQuery {token : String} (htoken : ∀ b ∈ token.toUTF8.toList, PlainByte b) (expires : Int64)
    (creatorId : String) (downloadFilename : Option String) :
    parameters (before 35 (fsQuery token expires creatorId downloadFilename)) =
      ("token".toUTF8.toList, token.toUTF8.toList) :: ("expires".toUTF8.toList, (toString expires).toUTF8.toList) ::
        parameters (namedPart "creator_id" (before 35 (creatorValue creatorId downloadFilename))) := by
  have hexpires := plain_expires expires
  have hfirst := notMem_param (isParamByte_namedPart (show IsParam "token" by simp [IsParam])
    fun b hb => isParamByte_plain (htoken b hb))
  have hsecond := notMem_param (isParamByte_namedPart (show IsParam "expires" by simp [IsParam])
    fun b hb => isParamByte_plain (hexpires b hb))
  have hamp (bytes : List UInt8) : before 35 (38 :: bytes) = 38 :: before 35 bytes := rfl
  rw [fsQuery_eq, before_of_notMem hfirst.2, hamp, before_of_notMem hsecond.2, hamp,
    before_namedPart (by simp [IsParam]) (by decide), parameters_cons hfirst.1, parameters_cons hsecond.1,
    readParameter_namedPart (by simp [IsParam]), readParameter_namedPart (by simp [IsParam]),
    percentDecode_plain htoken, percentDecode_plain hexpires]

theorem parameters_creator (creatorId : String) (downloadFilename : Option String) :
    ∃ rest, parameters (namedPart "creator_id" (before 35 (creatorValue creatorId downloadFilename))) =
      ("creator_id".toUTF8.toList, percentDecode ((creatorValue creatorId downloadFilename).takeWhile isParamByte)) ::
        rest := by
  have hcut (bytes : List UInt8) : before 38 (before 35 bytes) = bytes.takeWhile isParamByte := by
    change (bytes.takeWhile (· != 35)).takeWhile (· != 38) = _
    rw [List.takeWhile_takeWhile]
    exact congrArg (List.takeWhile · bytes) (funext fun b => by simp [isParamByte, bne, beq_eq_decide])
  obtain ⟨rest, hrest⟩ := parameters_head (namedPart "creator_id" (before 35 (creatorValue creatorId downloadFilename)))
  refine ⟨rest, ?_⟩
  rw [hrest, before_namedPart (by simp [IsParam]) (by decide), hcut, readParameter_namedPart (by simp [IsParam])]

theorem isParamByte_percentEncode (name : String) : ∀ b ∈ (percentEncode name).toUTF8.toList, isParamByte b = true := by
  rw [percentEncode_bytes]
  have hkeep : ∀ n : Nat, n < 256 → isAlphanumeric (UInt8.ofNat n) = true → isParamByte (UInt8.ofNat n) = true := by
    decide +kernel
  have hdigit : ∀ n : Nat, n < 16 → isParamByte (hexUpper (UInt8.ofNat n)) = true := by decide +kernel
  exact percentEncode_all
    (forall_byte (P := fun b => isAlphanumeric b = true → isParamByte b = true) hkeep) (by decide)
    (fun d hd => forall_digit (P := fun d => isParamByte (hexUpper d) = true) hdigit hd) _

theorem parameters_plain {creatorId : String} (hcreator : ∀ b ∈ creatorId.toUTF8.toList, isParamByte b = true)
    (htriplet : hasTriplet creatorId.toUTF8.toList = false) (downloadFilename : Option String) :
    parameters (namedPart "creator_id" (before 35 (creatorValue creatorId downloadFilename))) =
      ("creator_id".toUTF8.toList, creatorId.toUTF8.toList) ::
        (downloadFilename.map fun name => ("download_filename".toUTF8.toList, name.toUTF8.toList)).toList := by
  have hpart := notMem_param (isParamByte_namedPart (show IsParam "creator_id" by simp [IsParam]) hcreator)
  have hread : readParameter (namedPart "creator_id" creatorId.toUTF8.toList) =
      ("creator_id".toUTF8.toList, creatorId.toUTF8.toList) := by
    rw [readParameter_namedPart (by simp [IsParam]), percentDecode_of_plain htriplet]
  rw [creatorValue, before_of_notMem (notMem_param hcreator).2]
  cases downloadFilename with
  | none =>
    change parameters (namedPart "creator_id" (creatorId.toUTF8.toList ++ [])) = _
    rw [List.append_nil, parameters_of_notMem hpart.1, hread]
    rfl
  | some name =>
    have hname := isParamByte_namedPart (show IsParam "download_filename" by simp [IsParam])
      (isParamByte_percentEncode name)
    have hbefore : before 35 (filenamePart (some name)) =
        38 :: namedPart "download_filename" (percentEncode name).toUTF8.toList := by
      change 38 :: before 35 (namedPart "download_filename" _) = _
      have hnone := before_of_notMem (notMem_param hname).2 []
      rw [List.append_nil] at hnone
      rw [hnone]
      exact congrArg (38 :: ·) (List.append_nil _)
    have hsplit : namedPart "creator_id" (creatorId.toUTF8.toList ++
        38 :: namedPart "download_filename" (percentEncode name).toUTF8.toList) =
      namedPart "creator_id" creatorId.toUTF8.toList ++
        38 :: namedPart "download_filename" (percentEncode name).toUTF8.toList := by
      simp [namedPart]
    rw [hbefore, hsplit, parameters_cons hpart.1, hread, parameters_of_notMem (notMem_param hname).1,
      readParameter_namedPart (by simp [IsParam]), percentEncode_bytes, percentDecode_percentEncode (by decide)]
    rfl

/-! The whole URL. -/

theorem mem_path_iff (s : String) :
    (∀ b ∈ s.toUTF8.toList, isPathByte b = true) ↔ '#' ∉ s.toList ∧ '?' ∉ s.toList := by
  rw [← mem_utf8 (c := '#') (by decide), ← mem_utf8 (c := '?') (by decide)]
  constructor
  · intro h
    exact ⟨fun hmem => absurd (h _ hmem) (by decide), fun hmem => absurd (h _ hmem) (by decide)⟩
  · rintro ⟨hfragment, hquery⟩ b hb
    rw [isPathByte, Bool.and_eq_true]
    exact ⟨ne_of_notMem hquery b hb, ne_of_notMem hfragment b hb⟩

theorem mem_param_iff (s : String) :
    (∀ b ∈ s.toUTF8.toList, isParamByte b = true) ↔ '#' ∉ s.toList ∧ '&' ∉ s.toList := by
  rw [← mem_utf8 (c := '#') (by decide), ← mem_utf8 (c := '&') (by decide)]
  constructor
  · intro h
    exact ⟨fun hmem => absurd (h _ hmem) (by decide), fun hmem => absurd (h _ hmem) (by decide)⟩
  · rintro ⟨hfragment, hamp⟩ b hb
    rw [isParamByte, Bool.and_eq_true]
    exact ⟨ne_of_notMem hamp b hb, ne_of_notMem hfragment b hb⟩

/-- Texts that stand for themselves in a URL: the base, the key in the path, and the creator in the query. -/
structure PlainUrl (base key creatorId : String) : Prop where
  before : '#' ∉ base.toList ∧ '?' ∉ base.toList
  path : '#' ∉ key.toList ∧ '?' ∉ key.toList
  pathTriplet : hasTriplet key.toUTF8.toList = false
  param : '#' ∉ creatorId.toList ∧ '&' ∉ creatorId.toList
  paramTriplet : hasTriplet creatorId.toUTF8.toList = false

/-- What is read of a URL, without the do. -/
theorem readFsUrl_eq_some {base url : String} {read : FsUrl} (h : readFsUrl base url = some read) :
    (∃ rest, (splitUrl url.toUTF8.toList).path = (base ++ "/").toUTF8.toList ++ rest ∧
      percentDecode rest = read.key.toUTF8.toList) ∧
    (parameters (splitUrl url.toUTF8.toList).query).lookup "creator_id".toUTF8.toList =
      some read.creatorId.toUTF8.toList := by
  simp only [readFsUrl, bind, Option.bind_eq_some_iff, pure] at h
  obtain ⟨rest, hrest, key, hkey, tokenBytes, -, token, -, expiresBytes, -, expiresText, -, expires, -, creatorBytes,
    hcreatorBytes, creatorId, hcreator, h⟩ := h
  have hread : read.key = key ∧ read.creatorId = creatorId := by
    split at h
    · obtain ⟨name, -, heq⟩ := Option.bind_eq_some_iff.1 h
      rw [← Option.some.inj heq]
      exact ⟨rfl, rfl⟩
    · rw [← Option.some.inj h]
      exact ⟨rfl, rfl⟩
  rw [hread.1, hread.2]
  refine ⟨⟨rest, isPrefixOf?_eq_some.1 hrest, readText_eq_some.1 hkey⟩, ?_⟩
  rw [hcreatorBytes, readText_eq_some.1 hcreator]

/-- What is written with plain texts is read again. -/
theorem readFsUrl_plain {scheme authority route key creatorId : String}
    (h : PlainUrl (scheme ++ "://" ++ authority ++ route) key creatorId) {token : String}
    (htoken : ∀ b ∈ token.toUTF8.toList, PlainByte b) (expires : Int64) (downloadFilename : Option String) :
    readFsUrl (scheme ++ "://" ++ authority ++ route)
        (fsSignedUrl scheme authority route key token expires creatorId downloadFilename) =
      some ⟨key, creatorId, token, expires, downloadFilename⟩ := by
  have hbase : ∀ b ∈ (scheme ++ "://" ++ authority ++ route ++ "/").toUTF8.toList, isPathByte b = true := by
    rw [utf8_append, List.forall_mem_append]
    exact ⟨(mem_path_iff _).2 h.before, by decide +kernel⟩
  have hkey := (mem_path_iff key).2 h.path
  have hpath : ∀ b ∈ (scheme ++ "://" ++ authority ++ route ++ "/").toUTF8.toList ++ key.toUTF8.toList,
      isPathByte b = true := by
    rw [List.forall_mem_append]
    exact ⟨hbase, hkey⟩
  have hrest : (splitUrl (fsSignedUrl scheme authority route key token expires creatorId
      downloadFilename).toUTF8.toList).path =
        (scheme ++ "://" ++ authority ++ route ++ "/").toUTF8.toList ++ key.toUTF8.toList := by
    rw [fsSignedUrl_bytes, path_splitUrl, ← List.append_assoc, List.takeWhile_append_of_pos hpath,
      List.takeWhile_cons_of_neg (by decide), List.append_nil]
  have hparams : parameters (splitUrl (fsSignedUrl scheme authority route key token expires creatorId
      downloadFilename).toUTF8.toList).query = ("token".toUTF8.toList, token.toUTF8.toList) ::
        ("expires".toUTF8.toList, (toString expires).toUTF8.toList) ::
          ("creator_id".toUTF8.toList, creatorId.toUTF8.toList) ::
            (downloadFilename.map fun name => ("download_filename".toUTF8.toList, name.toUTF8.toList)).toList := by
    rw [fsSignedUrl_bytes, ← List.append_assoc, query_splitUrl hpath, parameters_fsQuery htoken,
      parameters_plain ((mem_param_iff creatorId).2 h.param) h.paramTriplet]
  have hnames : ("expires".toUTF8.toList == "token".toUTF8.toList) = false ∧
      ("creator_id".toUTF8.toList == "token".toUTF8.toList) = false ∧
      ("creator_id".toUTF8.toList == "expires".toUTF8.toList) = false ∧
      ("download_filename".toUTF8.toList == "token".toUTF8.toList) = false ∧
      ("download_filename".toUTF8.toList == "expires".toUTF8.toList) = false ∧
      ("download_filename".toUTF8.toList == "creator_id".toUTF8.toList) = false := by
    decide +kernel
  have htext (s : String) : readText s.toUTF8.toList = some s := readText_eq_some.2 rfl
  simp only [readFsUrl, hrest, hparams, isPrefixOf?_eq_some.2 rfl, percentDecode_of_plain h.pathTriplet, htext,
    bind, pure, Option.bind_some, List.lookup_cons, hnames, beq_self_eq_true, parseI64_toString]
  cases downloadFilename with
  | none => rfl
  | some name =>
    simp only [Option.map_some, Option.toList_some, List.lookup_cons, beq_self_eq_true, htext, Option.bind_some]

namespace FsGrant
variable (mac : Mac) (hmacSecret : List UInt8) (now : Int64) (routes : FsPresignRoutes) (grant : FsGrant)
  (downloadFilename : Option String)

def route : String :=
  match grant.operation with
  | .read => routes.read
  | .upload => routes.write

/-- What the URLs of the grant's route begin with. -/
def base : String := routes.scheme ++ "://" ++ routes.authority ++ grant.route routes

def url : String :=
  fsSignedUrl routes.scheme routes.authority (grant.route routes) grant.key (grant.token mac hmacSecret) grant.expires
    grant.creatorId downloadFilename

/-- The URL is read as what it was made for, with a token that is accepted. -/
def ComesBack : Prop :=
  ∃ token, readFsUrl (grant.base routes) (grant.url mac hmacSecret routes downloadFilename) =
      some ⟨grant.key, grant.creatorId, token, grant.expires, downloadFilename⟩ ∧
    grant.accepts mac hmacSecret now token = true

variable {mac hmacSecret now routes grant downloadFilename}

theorem plain_token : ∀ b ∈ (grant.token mac hmacSecret).toUTF8.toList, PlainByte b := by
  rw [token_eq]
  exact plain_hmacSign mac _ hmacSecret

theorem accepts_own : grant.accepts mac hmacSecret now (grant.token mac hmacSecret) = true ↔ now ≤ grant.expires := by
  have hverify : hmacVerify mac grant.message (hmacSign mac grant.message hmacSecret) hmacSecret = true := by
    rw [hmacVerify, hexDecode_hmacSign]
    exact beq_self_eq_true _
  rw [accepts_eq, token_eq, hverify]
  split
  · next hlt => simp [Int64.not_le.2 hlt]
  · next hle => simp [Int64.not_lt.1 hle]

/-- Nothing else is read as it was written. -/
theorem plainUrl_of_read {read : FsUrl}
    (h : readFsUrl (grant.base routes) (grant.url mac hmacSecret routes downloadFilename) = some read)
    (hkey : read.key = grant.key) (hcreator : read.creatorId = grant.creatorId) :
    PlainUrl (grant.base routes) grant.key grant.creatorId := by
  obtain ⟨⟨rest, hpath, hdecoded⟩, hlookup⟩ := readFsUrl_eq_some h
  rw [hkey] at hdecoded
  rw [hcreator] at hlookup
  have hbytes : (grant.url mac hmacSecret routes downloadFilename).toUTF8.toList =
      (grant.base routes ++ "/").toUTF8.toList ++ (grant.key.toUTF8.toList ++
        63 :: fsQuery (grant.token mac hmacSecret) grant.expires grant.creatorId downloadFilename) :=
    fsSignedUrl_bytes _ _ _ _ _ _ _ _
  have hbase : ∀ b ∈ (grant.base routes ++ "/").toUTF8.toList, isPathByte b = true := by
    intro b hb
    refine List.mem_takeWhile_imp (l := (grant.url mac hmacSecret routes downloadFilename).toUTF8.toList) ?_
    rw [← path_splitUrl, hpath]
    exact List.mem_append_left _ hb
  rw [hbytes, path_splitUrl, List.takeWhile_append_of_pos hbase] at hpath
  rw [← List.append_cancel_left hpath, percentDecode_takeWhile (by intro b hb; cases hb; decide)] at hdecoded
  have hplain : ∀ b ∈ (grant.base routes ++ "/").toUTF8.toList ++ grant.key.toUTF8.toList, isPathByte b = true := by
    rw [List.forall_mem_append]
    exact ⟨hbase, hdecoded.1⟩
  have hnames : ("creator_id".toUTF8.toList == "token".toUTF8.toList) = false ∧
      ("creator_id".toUTF8.toList == "expires".toUTF8.toList) = false := by
    decide +kernel
  obtain ⟨params, hparams⟩ := parameters_creator grant.creatorId downloadFilename
  rw [hbytes, ← List.append_assoc, query_splitUrl hplain, parameters_fsQuery plain_token, hparams] at hlookup
  simp only [List.lookup_cons, hnames, beq_self_eq_true, Option.some.injEq] at hlookup
  have hrest : ∀ b ∈ (filenamePart downloadFilename).head?, isParamByte b = false := by
    cases downloadFilename with
    | none => simp [filenamePart]
    | some name =>
      intro b hb
      obtain rfl := Option.some.inj hb
      decide
  rw [creatorValue, percentDecode_takeWhile hrest] at hlookup
  rw [utf8_append, List.forall_mem_append] at hbase
  exact ⟨(mem_path_iff _).1 hbase.1, (mem_path_iff _).1 hdecoded.1, hdecoded.2, (mem_param_iff _).1 hlookup.1,
    hlookup.2⟩

/-- A URL comes back as long as its texts stand for themselves and it has not expired. -/
theorem comesBack_iff : grant.ComesBack mac hmacSecret now routes downloadFilename ↔
    PlainUrl (grant.base routes) grant.key grant.creatorId ∧ now ≤ grant.expires := by
  constructor
  · rintro ⟨token, hread, haccepts⟩
    refine ⟨plainUrl_of_read hread rfl rfl, ?_⟩
    rw [accepts_eq] at haccepts
    split at haccepts
    · cases haccepts
    · next hle => exact Int64.not_lt.1 hle
  · rintro ⟨hplain, hnow⟩
    exact ⟨_, readFsUrl_plain hplain plain_token grant.expires downloadFilename, accepts_own.2 hnow⟩

/-- A key with a question mark is cut. -/
theorem question_mark_cut : ¬ ∀ (mac : Mac) (hmacSecret : List UInt8) (now : Int64) (routes : FsPresignRoutes)
    (grant : FsGrant) (downloadFilename : Option String), now ≤ grant.expires →
      grant.ComesBack mac hmacSecret now routes downloadFilename := by
  intro h
  obtain ⟨token, hread, -⟩ := h (fun _ message => message) [] 0 ⟨"files.example.test", "http", "/storage", "/upload"⟩
    ⟨.read, "a?b", "u1", 4102444800⟩ none (by decide)
  exact absurd (plainUrl_of_read hread rfl rfl).path.2 (by decide)

end FsGrant

namespace PresignRequest

/-- What the URL of the local routes is for. -/
def grant (expires : Int64) : PresignRequest → FsGrant
  | .download key creatorId _ _ _ => ⟨.read, key, creatorId, expires⟩
  | .upload key creatorId _ _ => ⟨.upload, key, creatorId, expires⟩

/-- What is served from the local routes is the URL of a grant. -/
theorem signedUrl_eq_url (mac : Mac) (hmacSecret : List UInt8) (expires : Int64) (request : PresignRequest) :
    ∃ routes downloadFilename, request.signedUrl mac hmacSecret expires =
      (request.grant expires).url mac hmacSecret routes downloadFilename := by
  cases request with
  | download key creatorId ttlSecs downloadFilename routes => exact ⟨routes, downloadFilename, rfl⟩
  | upload key creatorId ttlSecs routes => exact ⟨routes, none, rfl⟩

end PresignRequest

end Fusions.Storage
