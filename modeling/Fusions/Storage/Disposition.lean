import Mathlib.Data.List.TakeDrop
import Mathlib.Data.List.TakeWhile
import Fusions.Rpc.HeaderText
import Fusions.Storage.Encoding

/-! The Content-Disposition of a download, and how RFC 6266 and RFC 5987 read it. -/
namespace Fusions.Storage
open Fusions.Library

/-- The type, and the parameters with their values. -/
structure Disposition where
  type : String
  parameters : List (String × String)
  deriving DecidableEq

/-- Bytes as characters of ISO-8859-1. -/
def latin1 (bytes : List UInt8) : String := String.ofList (bytes.map fun b => Char.ofNat b.toNat)

def lowercase (bytes : List UInt8) : String := String.ofList (bytes.map fun b => (Char.ofNat b.toNat).toLower)

namespace Disposition

def isTokenByte (b : UInt8) : Bool :=
  isAlphanumeric b || [33, 35, 36, 37, 38, 39, 42, 43, 45, 46, 94, 95, 96, 124, 126].contains b

def isQuotedByte (b : UInt8) : Bool :=
  b == 9 || b == 32 || b == 33 || (35 ≤ b && b ≤ 91) || (93 ≤ b && b ≤ 126) || 128 ≤ b

/-- The bytes that may stand after a backslash. -/
def isEscapedByte (b : UInt8) : Bool := b == 9 || (32 ≤ b && b ≤ 126) || 128 ≤ b

def isAttrByte (b : UInt8) : Bool :=
  isAlphanumeric b || [33, 35, 36, 38, 43, 45, 46, 94, 95, 96, 124, 126].contains b

def skipBlanks (bytes : List UInt8) : List UInt8 := bytes.dropWhile fun b => b == 32 || b == 9

/-- A quoted string after its first quote, and what follows its last. -/
def quotedString : List UInt8 → Option (List UInt8 × List UInt8)
  | [] => none
  | [b] => if b = 34 then some ([], []) else none
  | b :: c :: rest =>
    if b = 34 then some ([], c :: rest)
    else if b = 92 then
      if isEscapedByte c then (quotedString rest).map fun read => (c :: read.1, read.2) else none
    else if isQuotedByte b then (quotedString (c :: rest)).map fun read => (b :: read.1, read.2)
    else none

/-- Charset, language, and the percent-encoded value, with quotes between them. -/
def extValue (bytes : List UInt8) : Option (String × List UInt8) :=
  match bytes.span (· != 39) with
  | (charset, _ :: rest) =>
    match rest.span (· != 39) with
    | (_, _ :: rest) =>
      let (chars, rest) := rest.span fun b => isAttrByte b || b == percent
      if wellEscaped chars then
        if lowercase charset = "utf-8" then (String.fromUTF8? ⟨(percentDecode chars).toArray⟩).map (·, rest)
        else if lowercase charset = "iso-8859-1" then some (latin1 (percentDecode chars), rest)
        else none
      else none
    | _ => none
  | _ => none

/-- A parameter with a star has an extended value, any other a quoted string or a token. -/
def parameter (bytes : List UInt8) : Option ((String × String) × List UInt8) :=
  let (name, rest) := bytes.span isTokenByte
  match skipBlanks rest with
  | 61 :: rest =>
    if name = [] then none
    else if name.getLast? = some 42 then
      (extValue (skipBlanks rest)).map fun read => ((lowercase name, read.1), read.2)
    else match skipBlanks rest with
      | 34 :: rest => (quotedString rest).map fun read => ((lowercase name, latin1 read.1), read.2)
      | rest =>
        let (value, rest) := rest.span isTokenByte
        if value = [] then none else some ((lowercase name, latin1 value), rest)
  | _ => none

/-- The parameters, each after a semicolon. -/
def readParameters : Nat → List UInt8 → Option (List (String × String))
  | 0, _ => none
  | n + 1, bytes =>
    match skipBlanks bytes with
    | [] => some []
    | 59 :: rest =>
      (parameter (skipBlanks rest)).bind fun read => (readParameters n read.2).map (read.1 :: ·)
    | _ => none

/-- One parameter at most for each byte. -/
def parse (header : String) : Option Disposition :=
  let (type, rest) := header.toUTF8.toList.span isTokenByte
  if type = [] then none
  else (readParameters (rest.length + 1) rest).map fun parameters => ⟨lowercase type, parameters⟩

/-- The extended name goes before the plain one. -/
def filename (d : Disposition) : Option String :=
  ((d.parameters.find? (·.1 == "filename*")).or (d.parameters.find? (·.1 == "filename"))).map (·.2)

theorem quotedString_cons {b : UInt8} (hb : isQuotedByte b = true) (bytes : List UInt8) :
    quotedString (b :: bytes) = (quotedString bytes).map fun read => (b :: read.1, read.2) := by
  have hquote : b ≠ 34 := by
    rintro rfl
    exact absurd hb (by decide)
  have hbackslash : b ≠ 92 := by
    rintro rfl
    exact absurd hb (by decide)
  cases bytes with
  | nil => simp [quotedString, hquote]
  | cons c rest => rw [quotedString, if_neg hquote, if_neg hbackslash, if_pos hb]

theorem quotedString_append {value : List UInt8} (hvalue : ∀ b ∈ value, isQuotedByte b = true) (rest : List UInt8) :
    quotedString (value ++ 34 :: rest) = some (value, rest) := by
  induction value with
  | nil => cases rest <;> rfl
  | cons b value ih =>
    obtain ⟨hb, hvalue⟩ := List.forall_mem_cons.1 hvalue
    rw [List.cons_append, quotedString_cons hb, ih hvalue]
    rfl

theorem span_token {name : List UInt8} (hname : ∀ b ∈ name, isTokenByte b = true) {b : UInt8}
    (hb : isTokenByte b = false) (rest : List UInt8) : (name ++ b :: rest).span isTokenByte = (name, b :: rest) := by
  rw [List.span_eq_takeWhile_dropWhile, List.takeWhile_append_of_pos hname, List.dropWhile_append_of_pos hname]
  simp [hb]

theorem skipBlanks_cons {b : UInt8} (hb : (b == 32 || b == 9) = false) (bytes : List UInt8) :
    skipBlanks (b :: bytes) = b :: bytes :=
  List.dropWhile_cons_of_neg (by simp [hb])

theorem parameter_quoted {name value : List UInt8} (hname : ∀ b ∈ name, isTokenByte b = true) (hne : name ≠ [])
    (hplain : name.getLast? ≠ some 42) (hvalue : ∀ b ∈ value, isQuotedByte b = true) (rest : List UInt8) :
    parameter (name ++ 61 :: 34 :: (value ++ 34 :: rest)) = some ((lowercase name, latin1 value), rest) := by
  rw [parameter, span_token hname (by decide)]
  dsimp only
  rw [skipBlanks_cons (by decide)]
  simp only
  rw [if_neg hne, if_neg hplain, skipBlanks_cons (by decide)]
  simp only
  rw [quotedString_append hvalue]
  rfl

theorem isAttrByte_encoded (bytes : List UInt8) :
    ∀ b ∈ Library.percentEncode isAlphanumeric bytes, (isAttrByte b || b == percent) = true := by
  refine percentEncode_all (fun b hb => by simp [isAttrByte, hb]) (by decide) (fun d hd => ?_) bytes
  exact forall_digit (P := fun d => (isAttrByte (hexUpper d) || hexUpper d == percent) = true) (by decide) hd

/-- A percent-encoded text is read as itself. -/
theorem extValue_percentEncode (s : String) :
    extValue (85 :: 84 :: 70 :: 45 :: 56 :: 39 :: 39 :: Library.percentEncode isAlphanumeric s.toUTF8.toList) =
      some (s, []) := by
  have hchars := isAttrByte_encoded s.toUTF8.toList
  have hspan : (Library.percentEncode isAlphanumeric s.toUTF8.toList).span (fun b => isAttrByte b || b == percent) =
      (Library.percentEncode isAlphanumeric s.toUTF8.toList, []) := by
    rw [List.span_eq_takeWhile_dropWhile, List.takeWhile_eq_self_iff.2 hchars, List.dropWhile_eq_nil_iff.2 hchars]
  have hcharset (rest : List UInt8) : (85 :: 84 :: 70 :: 45 :: 56 :: 39 :: rest).span (· != (39 : UInt8)) =
      ([85, 84, 70, 45, 56], 39 :: rest) := by
    rw [List.span_eq_takeWhile_dropWhile]
    rfl
  have hlanguage (rest : List UInt8) : (39 :: rest).span (· != (39 : UInt8)) = ([], 39 :: rest) := by
    rw [List.span_eq_takeWhile_dropWhile]
    rfl
  rw [extValue, hcharset]
  dsimp only
  rw [hlanguage]
  dsimp only
  rw [hspan]
  dsimp only
  rw [wellEscaped_percentEncode (by decide), percentDecode_percentEncode (by decide), fromUTF8?_utf8, if_pos rfl,
    if_pos (by decide)]
  rfl

theorem parameter_extended {name : List UInt8} (hname : ∀ b ∈ name, isTokenByte b = true)
    (hstar : name.getLast? = some 42) (s : String) :
    parameter (name ++ 61 :: 85 :: 84 :: 70 :: 45 :: 56 :: 39 :: 39 ::
      Library.percentEncode isAlphanumeric s.toUTF8.toList) = some ((lowercase name, s), []) := by
  have hne : name ≠ [] := by
    rintro rfl
    exact absurd hstar (by decide)
  rw [parameter, span_token hname (by decide)]
  dsimp only
  rw [skipBlanks_cons (by decide)]
  simp only
  rw [if_neg hne, if_pos hstar, skipBlanks_cons (by decide), extValue_percentEncode]
  rfl

/-- A parameter after a semicolon and a blank. -/
theorem readParameters_succ {n : Nat} {bytes rest : List UInt8} {read : String × String}
    (hstart : skipBlanks bytes = bytes) (h : parameter bytes = some (read, rest)) :
    readParameters (n + 1) (59 :: 32 :: bytes) = (readParameters n rest).map (read :: ·) := by
  have hblank : skipBlanks (32 :: bytes) = bytes := by
    rw [skipBlanks, List.dropWhile_cons_of_pos (by decide), ← skipBlanks, hstart]
  rw [readParameters, skipBlanks_cons (by decide)]
  simp only
  rw [hblank, h]
  rfl

private def attachment : List UInt8 := [97, 116, 116, 97, 99, 104, 109, 101, 110, 116]

private def filenameName : List UInt8 := [102, 105, 108, 101, 110, 97, 109, 101]

private def download : List UInt8 := [100, 111, 119, 110, 108, 111, 97, 100]

theorem skipBlanks_filename (rest : List UInt8) : skipBlanks (filenameName ++ rest) = filenameName ++ rest :=
  skipBlanks_cons (by decide) _

theorem parse_attachment {header : String} {rest : List UInt8} (h : header.toUTF8.toList = attachment ++ 59 :: rest) :
    parse header = (readParameters (rest.length + 2) (59 :: rest)).map fun parameters => ⟨"attachment", parameters⟩ := by
  rw [parse, h, span_token (forall_mem_of_all (by decide)) (by decide)]
  rfl

theorem parameter_filename {value : List UInt8} (hvalue : ∀ b ∈ value, isQuotedByte b = true) (rest : List UInt8) :
    parameter (filenameName ++ 61 :: 34 :: (value ++ 34 :: rest)) = some (("filename", latin1 value), rest) := by
  have hname : ∀ b ∈ filenameName, isTokenByte b = true := forall_mem_of_all (by decide)
  exact parameter_quoted hname (by decide) (by decide) hvalue rest

/-- A quoted name alone. -/
theorem parse_plain {header : String} {value : List UInt8} (hvalue : ∀ b ∈ value, isQuotedByte b = true)
    (h : header.toUTF8.toList = attachment ++ 59 :: 32 :: (filenameName ++ 61 :: 34 :: (value ++ [34]))) :
    parse header = some ⟨"attachment", [("filename", latin1 value)]⟩ := by
  rw [parse_attachment h, readParameters_succ (skipBlanks_filename _) (parameter_filename hvalue [])]
  rfl

/-- A quoted name, and an extended one. -/
theorem parse_extended {header : String} {s : String}
    (h : header.toUTF8.toList = attachment ++ 59 :: 32 :: (filenameName ++ 61 :: 34 :: (download ++ 34 :: 59 :: 32 ::
      ((filenameName ++ [42]) ++ 61 :: 85 :: 84 :: 70 :: 45 :: 56 :: 39 :: 39 ::
        Library.percentEncode isAlphanumeric s.toUTF8.toList)))) :
    parse header = some ⟨"attachment", [("filename", "download"), ("filename*", s)]⟩ := by
  have hstar : ∀ b ∈ filenameName ++ [42], isTokenByte b = true := forall_mem_of_all (by decide)
  have hvalue : ∀ b ∈ download, isQuotedByte b = true := forall_mem_of_all (by decide)
  rw [parse_attachment h, readParameters_succ (skipBlanks_filename _) (parameter_filename hvalue _),
    List.length_cons, readParameters_succ (by rw [List.append_assoc, skipBlanks_filename])
      (parameter_extended hstar rfl s)]
  rfl

end Disposition

/-! What the function writes. -/

def isControl (c : Char) : Bool := c.toNat < 32 || (127 ≤ c.toNat && c.toNat < 160)

/-- The parameters that the header is meant to have for a name without quotes and backslashes. -/
def intendedParameters (clean : String) : List (String × String) :=
  if clean.toList.all (·.toNat < 128) then [("filename", clean)] else [("filename", "download"), ("filename*", clean)]

/-- A header without control characters that is an attachment with the name of the file. -/
structure NamesFile (filename : String) : Prop where
  plain : ∀ c ∈ (contentDispositionAttachment filename).toList, isControl c = false
  accepted : (Rpc.HeaderValue.parse (contentDispositionAttachment filename)).isSome = true
  read : Disposition.parse (contentDispositionAttachment filename) =
    some ⟨"attachment", intendedParameters (sanitizeFilename filename)⟩
  named : (Disposition.parse (contentDispositionAttachment filename)).bind Disposition.filename =
    some (sanitizeFilename filename)

section
variable {filename : String}

theorem mem_sanitizeFilename {c : Char} :
    c ∈ (sanitizeFilename filename).toList ↔ c ∈ filename.toList ∧ c ≠ '\x22' ∧ c ≠ '\x5c' := by
  simp [sanitizeFilename]

theorem filename_intended (clean : String) :
    Disposition.filename ⟨"attachment", intendedParameters clean⟩ = some clean := by
  unfold intendedParameters
  split <;> simp [Disposition.filename]

/-- Text without control characters is a header value. -/
theorem accepted_of_plain {s : String} (h : ∀ c ∈ s.toList, isControl c = false) :
    (Rpc.HeaderValue.parse s).isSome = true := by
  have hascii : ∀ n : Nat, n < 128 → isControl (Char.ofNat n) = false →
      Rpc.isValueByte (Char.ofNat n).toUInt8 = true := by
    decide +kernel
  refine Rpc.parse_isSome.2 fun b hb => ?_
  rw [utf8_toList] at hb
  obtain ⟨c, hc, hmem⟩ := List.mem_flatMap.1 hb
  rcases Nat.lt_or_ge c.toNat 128 with hlow | hhigh
  · rw [utf8EncodeChar_ascii hlow] at hmem
    obtain rfl := List.mem_singleton.1 hmem
    exact forall_ascii (P := fun c => isControl c = false → Rpc.isValueByte c.toUInt8 = true) hascii hlow (h c hc)
  · have hb := utf8EncodeChar_high hhigh b hmem
    have hprintable : 32 ≤ b := UInt8.le_trans (by decide) hb
    have hdelete : b ≠ 127 := by
      rintro rfl
      exact absurd hb (by decide)
    simp [Rpc.isValueByte, hprintable, hdelete]

/-- The bytes of a name in plain ASCII without control characters, quotes and backslashes. -/
theorem isQuotedByte_sanitized (hascii : ∀ c ∈ (sanitizeFilename filename).toList, c.toNat < 128)
    (hplain : ∀ c ∈ (sanitizeFilename filename).toList, isControl c = false) :
    ∀ b ∈ (sanitizeFilename filename).toUTF8.toList, Disposition.isQuotedByte b = true := by
  have hall : ∀ n : Nat, n < 128 → isControl (Char.ofNat n) = false → Char.ofNat n ≠ '\x22' → Char.ofNat n ≠ '\x5c' →
      Disposition.isQuotedByte (Char.ofNat n).toUInt8 = true := by
    decide +kernel
  rw [utf8_ascii hascii, List.forall_mem_map]
  intro c hc
  obtain ⟨-, hquote, hbackslash⟩ := mem_sanitizeFilename.1 hc
  exact forall_ascii (P := fun c => isControl c = false → c ≠ '\x22' → c ≠ '\x5c' →
    Disposition.isQuotedByte c.toUInt8 = true) hall (hascii c hc) (hplain c hc) hquote hbackslash

theorem plain_bytes (clean : String) : (s!"attachment; filename=\"{clean}\"").toUTF8.toList =
    Disposition.attachment ++ 59 :: 32 :: (Disposition.filenameName ++ 61 :: 34 :: (clean.toUTF8.toList ++ [34])) := by
  change ("attachment; filename=\"" ++ clean ++ "\"").toUTF8.toList = _
  have hstart : ("attachment; filename=\"" : String).toUTF8.toList =
      Disposition.attachment ++ 59 :: 32 :: (Disposition.filenameName ++ [61, 34]) :=
    utf8_ascii (forall_mem_of_all (by decide))
  have hstop : ("\"" : String).toUTF8.toList = [34] := utf8_ascii (forall_mem_of_all (by decide))
  rw [utf8_append, utf8_append, hstart, hstop]
  simp

theorem extended_bytes (encoded : String) :
    (s!"attachment; filename=\"download\"; filename*=UTF-8''{encoded}").toUTF8.toList =
    Disposition.attachment ++ 59 :: 32 :: (Disposition.filenameName ++ 61 :: 34 :: (Disposition.download ++ 34 :: 59 ::
      32 :: ((Disposition.filenameName ++ [42]) ++ 61 :: 85 :: 84 :: 70 :: 45 :: 56 :: 39 :: 39 ::
        encoded.toUTF8.toList))) := by
  change ("attachment; filename=\"download\"; filename*=UTF-8''" ++ encoded).toUTF8.toList = _
  have hstart : ("attachment; filename=\"download\"; filename*=UTF-8''" : String).toUTF8.toList =
      Disposition.attachment ++ 59 :: 32 :: (Disposition.filenameName ++ 61 :: 34 :: (Disposition.download ++ 34 :: 59 ::
        32 :: ((Disposition.filenameName ++ [42]) ++ [61, 85, 84, 70, 45, 56, 39, 39]))) :=
    utf8_ascii (forall_mem_of_all (by decide))
  rw [utf8_append, hstart]
  simp

theorem contentDisposition_of_ascii (h : ∀ c ∈ (sanitizeFilename filename).toList, c.toNat < 128) :
    contentDispositionAttachment filename = s!"attachment; filename=\"{sanitizeFilename filename}\"" ∧
      intendedParameters (sanitizeFilename filename) = [("filename", sanitizeFilename filename)] := by
  have hall : (sanitizeFilename filename).toList.all (·.toNat < 128) = true := by simpa using h
  exact ⟨if_pos hall, if_pos hall⟩

theorem contentDisposition_of_not_ascii {c : Char} (hc : c ∈ (sanitizeFilename filename).toList) (h : 128 ≤ c.toNat) :
    contentDispositionAttachment filename =
      s!"attachment; filename=\"download\"; filename*=UTF-8''{percentEncode (sanitizeFilename filename)}" ∧
      intendedParameters (sanitizeFilename filename) =
        [("filename", "download"), ("filename*", sanitizeFilename filename)] := by
  have hall : ¬ (sanitizeFilename filename).toList.all (·.toNat < 128) = true := by
    simp only [List.all_eq_true, decide_eq_true_eq]
    exact fun hall => Nat.not_lt.2 h (hall c hc)
  exact ⟨if_neg hall, if_neg hall⟩

/-- Percent-encoded text has no control characters. -/
theorem encoded_plain (s : String) : ∀ c ∈ (percentEncode s).toList, isControl c = false := by
  have hascii : ∀ n : Nat, n < 128 →
      (Disposition.isAttrByte (Char.ofNat n).toUInt8 || (Char.ofNat n).toUInt8 == percent) = true →
        isControl (Char.ofNat n) = false := by
    decide +kernel
  have hlow : ∀ n : Nat, n < 256 → (Disposition.isAttrByte (UInt8.ofNat n) || UInt8.ofNat n == percent) = true →
      UInt8.ofNat n < 128 := by
    decide +kernel
  have hattr := Disposition.isAttrByte_encoded s.toUTF8.toList
  rw [← percentEncode_bytes] at hattr
  have hbytes : ∀ b ∈ (percentEncode s).toUTF8.toList, b < 128 := fun b hb =>
    forall_byte (P := fun b => (Disposition.isAttrByte b || b == percent) = true → b < 128) hlow b (hattr b hb)
  intro c hc
  have hsmall := lt_of_utf8_lt hbytes c hc
  exact forall_ascii (P := fun c => (Disposition.isAttrByte c.toUInt8 || c.toUInt8 == percent) = true →
    isControl c = false) hascii hsmall (hattr _ ((mem_utf8 hsmall).2 hc))

theorem namesFile_of_ascii (hascii : ∀ c ∈ (sanitizeFilename filename).toList, c.toNat < 128)
    (hplain : ∀ c ∈ (sanitizeFilename filename).toList, isControl c = false) : NamesFile filename := by
  obtain ⟨hheader, hintended⟩ := contentDisposition_of_ascii hascii
  have hread : Disposition.parse (contentDispositionAttachment filename) =
      some ⟨"attachment", intendedParameters (sanitizeFilename filename)⟩ := by
    rw [hintended, hheader, Disposition.parse_plain (isQuotedByte_sanitized hascii hplain) (plain_bytes _), latin1,
      ofList_utf8 hascii]
  have hnone : ∀ c ∈ (contentDispositionAttachment filename).toList, isControl c = false := by
    rw [hheader]
    change ∀ c ∈ ("attachment; filename=\"" ++ sanitizeFilename filename ++ "\"").toList, isControl c = false
    rw [String.toList_append, String.toList_append]
    simp only [List.forall_mem_append]
    exact ⟨⟨forall_mem_of_all (by decide), hplain⟩, forall_mem_of_all (by decide)⟩
  exact ⟨hnone, accepted_of_plain hnone, hread, by rw [hread, Option.bind_some, filename_intended]⟩

theorem namesFile_of_not_ascii {c : Char} (hc : c ∈ (sanitizeFilename filename).toList) (h : 128 ≤ c.toNat) :
    NamesFile filename := by
  obtain ⟨hheader, hintended⟩ := contentDisposition_of_not_ascii hc h
  have hread : Disposition.parse (contentDispositionAttachment filename) =
      some ⟨"attachment", intendedParameters (sanitizeFilename filename)⟩ := by
    have hbytes := extended_bytes (percentEncode (sanitizeFilename filename))
    rw [percentEncode_bytes] at hbytes
    rw [hintended, hheader, Disposition.parse_extended hbytes]
  have hnone : ∀ c ∈ (contentDispositionAttachment filename).toList, isControl c = false := by
    rw [hheader]
    change ∀ c ∈ ("attachment; filename=\"download\"; filename*=UTF-8''" ++
      percentEncode (sanitizeFilename filename)).toList, isControl c = false
    rw [String.toList_append]
    simp only [List.forall_mem_append]
    exact ⟨forall_mem_of_all (by decide), encoded_plain _⟩
  exact ⟨hnone, accepted_of_plain hnone, hread, by rw [hread, Option.bind_some, filename_intended]⟩

/-- The header is in order where the name is not ASCII or has no control characters. -/
theorem namesFile_iff (filename : String) : NamesFile filename ↔
    (∃ c ∈ filename.toList, 128 ≤ c.toNat) ∨ ∀ c ∈ filename.toList, isControl c = false := by
  by_cases hascii : ∀ c ∈ filename.toList, c.toNat < 128
  · have hclean : ∀ c ∈ (sanitizeFilename filename).toList, c.toNat < 128 :=
      fun c hc => hascii c (mem_sanitizeFilename.1 hc).1
    constructor
    · intro w
      right
      intro c hc
      by_cases hremoved : c = '\x22' ∨ c = '\x5c'
      · rcases hremoved with rfl | rfl <;> rfl
      · have hkept := mem_sanitizeFilename.2 ⟨hc, fun h => hremoved (.inl h), fun h => hremoved (.inr h)⟩
        have hplain := w.plain
        rw [(contentDisposition_of_ascii hclean).1] at hplain
        refine hplain c ?_
        change c ∈ ("attachment; filename=\"" ++ sanitizeFilename filename ++ "\"").toList
        simp [String.toList_append, hkept]
    · rintro (⟨c, hc, hhigh⟩ | hplain)
      · exact absurd (hascii c hc) (Nat.not_lt.2 hhigh)
      · exact namesFile_of_ascii hclean fun c hc => hplain c (mem_sanitizeFilename.1 hc).1
  · obtain ⟨c, hc, hhigh⟩ : ∃ c ∈ filename.toList, 128 ≤ c.toNat := by simpa using hascii
    have hkept : c ∈ (sanitizeFilename filename).toList := by
      refine mem_sanitizeFilename.2 ⟨hc, ?_, ?_⟩
      · rintro rfl
        exact absurd hhigh (by decide)
      · rintro rfl
        exact absurd hhigh (by decide)
    exact ⟨fun _ => .inl ⟨c, hc, hhigh⟩, fun _ => namesFile_of_not_ascii hkept hhigh⟩

/-- A line break in a name splits the header. -/
theorem disposition_splits : ¬ ∀ filename : String, NamesFile filename := by
  intro h
  have hplain := (h "a\r\nSet-Cookie: x").plain '\r'
  rw [(contentDisposition_of_ascii (forall_mem_of_all (by decide))).1] at hplain
  exact absurd (hplain (by decide)) (by decide)

end

end Fusions.Storage
