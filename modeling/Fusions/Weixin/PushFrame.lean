import Fusions.Library.FaultlessUtf8

/-! Encrypted pushes of WeChat: sixteen random bytes, the length of the message, the message and the appid. -/
namespace Fusions.Weixin
open Fusions.Library
open Fusions.Library.LossyUtf8 (replacement fromUtf8Lossy fromUtf8Lossy_utf8 utf8_fromUtf8Lossy)

inductive PushError where
  | invalid (detail : String)
  | unavailable (detail : String)
  deriving DecidableEq, Repr

/-- `[u8; 32]`. -/
structure AesKey where
  bytes : List UInt8
  length_eq : bytes.length = 32

/-- Base64 and AES-256-CBC with PKCS#7, each with a text for its failures. -/
structure PushCipher where
  encode : List UInt8 → String
  decode : String → Except String (List UInt8)
  encryptPadded : List UInt8 → List UInt8 → List UInt8 → List UInt8
  newFromSlices : List UInt8 → List UInt8 → Except String Unit
  decryptPadded : List UInt8 → List UInt8 → List UInt8 → Except String (List UInt8)
  /-- What `FromUtf8Error` prints of bytes that are no text. -/
  utf8Error : List UInt8 → String
  decode_encode : ∀ bytes, decode (encode bytes) = .ok bytes
  newFromSlices_ok : ∀ key iv, key.length = 32 → iv.length = 16 → newFromSlices key iv = .ok ()
  decryptPadded_encryptPadded : ∀ key iv plaintext, key.length = 32 → iv.length = 16 →
    decryptPadded key iv (encryptPadded key iv plaintext) = .ok plaintext

/-- `&bytes[n..]`. -/
def sliceFrom (bytes : List UInt8) (n : Nat) : Option (List UInt8) :=
  if n ≤ bytes.length then some (bytes.drop n) else none

/-- `&bytes[..n]`. -/
def sliceTo (bytes : List UInt8) (n : Nat) : Option (List UInt8) :=
  if n ≤ bytes.length then some (bytes.take n) else none

/-- `u32::from_be_bytes`. -/
def fromBeBytes (a b c d : UInt8) : Nat := ((a.toNat * 256 + b.toNat) * 256 + c.toNat) * 256 + d.toNat

namespace PushCipher
variable (cipher : PushCipher)

def aesKey (encodingAesKey : String) : Except PushError AesKey :=
  match cipher.decode (encodingAesKey ++ "=") with
  | .error e => .error (.unavailable ("encoding aes key base64: " ++ e))
  | .ok key => if h : key.length = 32 then .ok ⟨key, h⟩ else .error (.unavailable "aes key must be 32 bytes")

/-- The message of a body, behind its length. `none` is a panic. -/
def openBody (msgLen : Nat) (body : List UInt8) (expectedAppid : String) : Option (Except PushError String) := do
  if body.length < msgLen then return .error (.invalid "plaintext msg_len out of range")
  let msg ← sliceTo body msgLen
  let appid := String.ofList (fromUtf8Lossy (← sliceFrom body msgLen))
  if !expectedAppid.isEmpty && appid != expectedAppid then return .error (.invalid ("appid mismatch: " ++ appid))
  match String.fromUTF8? ⟨msg.toArray⟩ with
  | some msg => return .ok msg
  | none => return .error (.invalid ("msg utf-8: " ++ cipher.utf8Error msg))

def openFrame (plaintext : List UInt8) (expectedAppid : String) : Option (Except PushError String) := do
  if plaintext.length < 20 then return .error (.invalid "plaintext frame too short")
  let msgLen := fromBeBytes (← plaintext[16]?) (← plaintext[17]?) (← plaintext[18]?) (← plaintext[19]?)
  cipher.openBody msgLen (← sliceFrom plaintext 20) expectedAppid

def decryptAesMessage (encodingAesKey ciphertextB64 expectedAppid : String) : Option (Except PushError String) :=
  match cipher.aesKey encodingAesKey with
  | .error e => some (.error e)
  | .ok key =>
    match cipher.decode ciphertextB64 with
    | .error e => some (.error (.invalid ("ciphertext base64: " ++ e)))
    | .ok ciphertext => do
      let iv ← sliceTo key.bytes 16
      match cipher.newFromSlices key.bytes iv with
      | .error e => return .error (.unavailable ("aes init: " ++ e))
      | .ok () =>
        match cipher.decryptPadded key.bytes iv ciphertext with
        | .error e => return .error (.invalid ("aes decrypt: " ++ e))
        | .ok plaintext => cipher.openFrame plaintext expectedAppid

/-- The bytes that a ciphertext is the encryption of. -/
def plaintext? (encodingAesKey ciphertextB64 : String) : Option (List UInt8) := do
  let key ← (cipher.aesKey encodingAesKey).toOption
  let ciphertext ← (cipher.decode ciphertextB64).toOption
  (cipher.decryptPadded key.bytes (key.bytes.take 16) ciphertext).toOption

/-- What the sender makes of a plaintext. -/
def encryptMessage (key : AesKey) (plaintext : List UInt8) : String :=
  cipher.encode (cipher.encryptPadded key.bytes (key.bytes.take 16) plaintext)

end PushCipher

/-- `u32::to_be_bytes`. -/
def toBeBytes (n : Nat) : List UInt8 := [.ofNat (n / 16777216), .ofNat (n / 65536), .ofNat (n / 256), .ofNat n]

/-- `random(16) + msg_len(4) + msg + appid`. -/
def frame (random : List UInt8) (message appid : String) : List UInt8 :=
  random ++ (toBeBytes message.toUTF8.toList.length ++ (message.toUTF8.toList ++ appid.toUTF8.toList))

/-- An appid that the check compares: it is given and has no replacement character. -/
def Checked (appid : String) : Prop := appid ≠ "" ∧ replacement ∉ appid.toList

/-- The frames for this app are accepted, and no others. -/
structure PushCipher.AcceptsFrames (cipher : PushCipher) : Prop where
  total : ∀ encodingAesKey ciphertext expected, cipher.decryptAesMessage encodingAesKey ciphertext expected ≠ none
  own : ∀ encodingAesKey key random message expected, cipher.aesKey encodingAesKey = .ok key → random.length = 16 →
    message.toUTF8.toList.length < 2 ^ 32 → Checked expected →
    cipher.decryptAesMessage encodingAesKey (cipher.encryptMessage key (frame random message expected)) expected =
      some (.ok message)
  other : ∀ encodingAesKey key random message appid expected, cipher.aesKey encodingAesKey = .ok key →
    random.length = 16 → message.toUTF8.toList.length < 2 ^ 32 → Checked expected → appid ≠ expected →
    ∃ e, cipher.decryptAesMessage encodingAesKey (cipher.encryptMessage key (frame random message appid)) expected =
      some (.error e)
  only : ∀ encodingAesKey ciphertext expected message, Checked expected →
    cipher.decryptAesMessage encodingAesKey ciphertext expected = some (.ok message) →
    ∃ random, random.length = 16 ∧ message.toUTF8.toList.length < 2 ^ 32 ∧
      cipher.plaintext? encodingAesKey ciphertext = some (frame random message expected)

section
variable {cipher : PushCipher}

theorem fromBeBytes_lt (a b c d : UInt8) : fromBeBytes a b c d < 2 ^ 32 := by
  have ha := a.toNat_lt
  have hb := b.toNat_lt
  have hc := c.toNat_lt
  have hd := d.toNat_lt
  unfold fromBeBytes
  omega

theorem toBeBytes_fromBeBytes (a b c d : UInt8) : toBeBytes (fromBeBytes a b c d) = [a, b, c, d] := by
  have ha := a.toNat_lt
  have hb := b.toNat_lt
  have hc := c.toNat_lt
  have hd := d.toNat_lt
  have hbyte {n : Nat} {b : UInt8} (h : n % 256 = b.toNat) : UInt8.ofNat n = b := by
    rw [← UInt8.toNat_inj, UInt8.toNat_ofNat']
    exact h
  unfold toBeBytes fromBeBytes
  rw [hbyte (b := a) (by omega), hbyte (b := b) (by omega), hbyte (b := c) (by omega), hbyte (b := d) (by omega)]

theorem exists_toBeBytes {n : Nat} (h : n < 2 ^ 32) :
    ∃ a b c d, toBeBytes n = [a, b, c, d] ∧ fromBeBytes a b c d = n := by
  refine ⟨_, _, _, _, rfl, ?_⟩
  unfold fromBeBytes
  simp only [UInt8.toNat_ofNat']
  omega

/-- Twenty bytes and more are sixteen, four and the rest. -/
theorem exists_parts {plaintext : List UInt8} (h : 20 ≤ plaintext.length) :
    ∃ random a b c d body, random.length = 16 ∧ plaintext = random ++ a :: b :: c :: d :: body := by
  have hlength : 4 ≤ (plaintext.drop 16).length := by
    rw [List.length_drop]
    omega
  have hsplit := List.take_append_drop 16 plaintext
  match hrest : plaintext.drop 16, hlength with
  | a :: b :: c :: d :: body, _ =>
    refine ⟨plaintext.take 16, a, b, c, d, body, ?_, ?_⟩
    · rw [List.length_take]
      omega
    · rw [← hrest, hsplit]

theorem getElem?_parts {random : List UInt8} (h : random.length = 16) (rest : List UInt8) (i : Nat) :
    (random ++ rest)[16 + i]? = rest[i]? := by
  rw [List.getElem?_append_right (by omega), h, Nat.add_sub_cancel_left]

theorem openFrame_short {plaintext : List UInt8} (h : plaintext.length < 20) (expected : String) :
    cipher.openFrame plaintext expected = some (.error (.invalid "plaintext frame too short")) := by
  rw [PushCipher.openFrame, if_pos h]
  rfl

theorem openFrame_parts {random : List UInt8} (h : random.length = 16) (a b c d : UInt8) (body : List UInt8)
    (expected : String) :
    cipher.openFrame (random ++ a :: b :: c :: d :: body) expected =
      cipher.openBody (fromBeBytes a b c d) body expected := by
  have hlength : (random ++ a :: b :: c :: d :: body).length = 20 + body.length := by
    rw [List.length_append, h]
    simp only [List.length_cons]
    omega
  have hbody : sliceFrom (random ++ a :: b :: c :: d :: body) 20 = some body := by
    rw [sliceFrom, if_pos (by omega), List.drop_append, List.drop_eq_nil_of_le (by omega), h]
    rfl
  have hget := getElem?_parts h (a :: b :: c :: d :: body)
  rw [PushCipher.openFrame, if_neg (by omega), hget 0, hget 1, hget 2, hget 3, hbody]
  rfl

theorem openBody_short {n : Nat} {body : List UInt8} (h : body.length < n) (expected : String) :
    cipher.openBody n body expected = some (.error (.invalid "plaintext msg_len out of range")) := by
  rw [PushCipher.openBody, if_pos h]
  rfl

/-- What becomes of a message and an appid. -/
theorem openBody_append (msg appid : List UInt8) (expected : String) :
    cipher.openBody msg.length (msg ++ appid) expected = some
      (if !expected.isEmpty && String.ofList (fromUtf8Lossy appid) != expected then
        .error (.invalid ("appid mismatch: " ++ String.ofList (fromUtf8Lossy appid)))
      else (String.fromUTF8? ⟨msg.toArray⟩).elim (.error (.invalid ("msg utf-8: " ++ cipher.utf8Error msg))) .ok) := by
  have hle : msg.length ≤ (msg ++ appid).length := by
    rw [List.length_append]
    exact Nat.le_add_right _ _
  have hmsg : sliceTo (msg ++ appid) msg.length = some msg := by
    rw [sliceTo, if_pos hle, List.take_left']
    rfl
  have happid : sliceFrom (msg ++ appid) msg.length = some appid := by
    rw [sliceFrom, if_pos hle, List.drop_left']
    rfl
  rw [PushCipher.openBody, if_neg (Nat.not_lt.2 hle), hmsg, happid]
  dsimp only [Option.bind_eq_bind, Option.bind_some]
  by_cases hother : !expected.isEmpty && String.ofList (fromUtf8Lossy appid) != expected
  · rw [if_pos hother, if_pos hother]
    rfl
  · rw [if_neg hother, if_neg hother]
    cases String.fromUTF8? ⟨msg.toArray⟩ with
    | none => rfl
    | some text => rfl

theorem exists_split {n : Nat} {body : List UInt8} (h : n ≤ body.length) :
    ∃ msg appid, msg.length = n ∧ body = msg ++ appid :=
  ⟨body.take n, body.drop n, List.length_take_of_le h, (List.take_append_drop n body).symm⟩

theorem length_iv (key : AesKey) : (key.bytes.take 16).length = 16 := by
  rw [List.length_take, key.length_eq]
  rfl

/-- What is not opened is an error, and what is opened is a frame. -/
theorem decryptAesMessage_cases (cipher : PushCipher) (encodingAesKey ciphertext expected : String) :
    (cipher.plaintext? encodingAesKey ciphertext = none ∧
      ∃ e, cipher.decryptAesMessage encodingAesKey ciphertext expected = some (.error e)) ∨
      ∃ plaintext, cipher.plaintext? encodingAesKey ciphertext = some plaintext ∧
        cipher.decryptAesMessage encodingAesKey ciphertext expected = cipher.openFrame plaintext expected := by
  rw [PushCipher.decryptAesMessage, PushCipher.plaintext?]
  cases hkey : cipher.aesKey encodingAesKey with
  | error e => exact .inl ⟨rfl, e, rfl⟩
  | ok key =>
    cases hdecode : cipher.decode ciphertext with
    | error e => exact .inl ⟨rfl, _, rfl⟩
    | ok bytes =>
      have hiv : sliceTo key.bytes 16 = some (key.bytes.take 16) := by
        rw [sliceTo, if_pos (by rw [key.length_eq]; decide)]
      have hnew := cipher.newFromSlices_ok key.bytes (key.bytes.take 16) key.length_eq (length_iv key)
      dsimp only [Except.toOption, Option.bind_eq_bind, Option.bind_some]
      rw [hiv, Option.bind_some, hnew]
      dsimp only
      cases cipher.decryptPadded key.bytes (key.bytes.take 16) bytes with
      | error e => exact .inl ⟨rfl, _, rfl⟩
      | ok plaintext => exact .inr ⟨plaintext, rfl, rfl⟩

theorem plaintext?_encryptMessage {encodingAesKey : String} {key : AesKey}
    (hkey : cipher.aesKey encodingAesKey = .ok key) (plaintext : List UInt8) :
    cipher.plaintext? encodingAesKey (cipher.encryptMessage key plaintext) = some plaintext := by
  have hdecrypt := cipher.decryptPadded_encryptPadded key.bytes (key.bytes.take 16) plaintext key.length_eq
    (length_iv key)
  rw [PushCipher.plaintext?, PushCipher.encryptMessage, hkey, cipher.decode_encode]
  exact congrArg Except.toOption hdecrypt

theorem decryptAesMessage_encryptMessage {encodingAesKey : String} {key : AesKey}
    (hkey : cipher.aesKey encodingAesKey = .ok key) (plaintext : List UInt8) (expected : String) :
    cipher.decryptAesMessage encodingAesKey (cipher.encryptMessage key plaintext) expected =
      cipher.openFrame plaintext expected := by
  have hplaintext := plaintext?_encryptMessage hkey plaintext
  obtain ⟨hnone, -⟩ | ⟨opened, hopened, h⟩ :=
    decryptAesMessage_cases cipher encodingAesKey (cipher.encryptMessage key plaintext) expected
  · rw [hnone] at hplaintext
    cases hplaintext
  · rw [hopened] at hplaintext
    rw [h, Option.some.inj hplaintext]

theorem openFrame_ne_none (plaintext : List UInt8) (expected : String) :
    cipher.openFrame plaintext expected ≠ none := by
  rcases Nat.lt_or_ge plaintext.length 20 with hshort | hlong
  · rw [openFrame_short hshort]
    exact Option.some_ne_none _
  obtain ⟨random, a, b, c, d, body, hrandom, rfl⟩ := exists_parts hlong
  rw [openFrame_parts hrandom]
  generalize fromBeBytes a b c d = n
  rcases Nat.lt_or_ge body.length n with hshort | hlong
  · rw [openBody_short hshort]
    exact Option.some_ne_none _
  obtain ⟨msg, appid, rfl, rfl⟩ := exists_split hlong
  rw [openBody_append]
  exact Option.some_ne_none _

theorem openFrame_frame {random : List UInt8} (hrandom : random.length = 16) {message : String}
    (hmessage : message.toUTF8.toList.length < 2 ^ 32) (appid expected : String) :
    cipher.openFrame (frame random message appid) expected = some
      (if !expected.isEmpty && appid != expected then .error (.invalid ("appid mismatch: " ++ appid))
      else .ok message) := by
  obtain ⟨a, b, c, d, hbytes, hlength⟩ := exists_toBeBytes hmessage
  have happid : String.ofList (fromUtf8Lossy appid.toUTF8.toList) = appid := by
    rw [fromUtf8Lossy_utf8, String.ofList_toList]
  have hopen := @openBody_append cipher message.toUTF8.toList appid.toUTF8.toList expected
  rw [frame, hbytes, List.cons_append, List.cons_append, List.cons_append, List.cons_append, List.nil_append,
    openFrame_parts hrandom, hlength, hopen, happid, fromUTF8?_utf8]
  rfl

theorem Checked.given {appid : String} (h : Checked appid) : (!appid.isEmpty) = true := by
  rw [Bool.not_eq_true', ← Bool.not_eq_true, String.isEmpty_iff]
  exact h.1

/-- A frame is opened to its message. -/
theorem openFrame_ok {plaintext : List UInt8} {expected message : String} (hexpected : Checked expected)
    (h : cipher.openFrame plaintext expected = some (.ok message)) :
    ∃ random, random.length = 16 ∧ message.toUTF8.toList.length < 2 ^ 32 ∧
      plaintext = frame random message expected := by
  rcases Nat.lt_or_ge plaintext.length 20 with hshort | hlong
  · rw [openFrame_short hshort] at h
    cases h
  obtain ⟨random, a, b, c, d, body, hrandom, rfl⟩ := exists_parts hlong
  rw [openFrame_parts hrandom] at h
  have hbytes := toBeBytes_fromBeBytes a b c d
  have hlt := fromBeBytes_lt a b c d
  generalize fromBeBytes a b c d = n at h hbytes hlt
  rcases Nat.lt_or_ge body.length n with hshort | hlong
  · rw [openBody_short hshort] at h
    cases h
  obtain ⟨msg, appid, rfl, rfl⟩ := exists_split hlong
  rw [openBody_append] at h
  have h := Option.some.inj h
  split at h
  · cases h
  next hsame =>
    have happid : fromUtf8Lossy appid = expected.toList := by
      rw [hexpected.given, Bool.true_and, bne_iff_ne, not_not] at hsame
      rw [← hsame, String.toList_ofList]
    cases htext : String.fromUTF8? ⟨msg.toArray⟩ with
    | none => rw [htext] at h; cases h
    | some text =>
      rw [htext] at h
      obtain rfl : text = message := Except.ok.inj h
      have hmsg := utf8_of_fromUTF8? htext
      rw [hmsg] at hlt hbytes ⊢
      refine ⟨random, hrandom, hlt, ?_⟩
      rw [frame, hbytes, utf8_fromUtf8Lossy happid hexpected.2]
      rfl

theorem accepts_frames (cipher : PushCipher) : cipher.AcceptsFrames where
  total encodingAesKey ciphertext expected := by
    obtain ⟨-, e, h⟩ | ⟨plaintext, -, h⟩ := decryptAesMessage_cases cipher encodingAesKey ciphertext expected
    · rw [h]
      exact Option.some_ne_none _
    · rw [h]
      exact openFrame_ne_none plaintext expected
  own encodingAesKey key random message expected hkey hrandom hmessage _ := by
    rw [decryptAesMessage_encryptMessage hkey, openFrame_frame hrandom hmessage, bne_self_eq_false, Bool.and_false]
    rfl
  other encodingAesKey key random message appid expected hkey hrandom hmessage hexpected hother := by
    refine ⟨.invalid ("appid mismatch: " ++ appid), ?_⟩
    rw [decryptAesMessage_encryptMessage hkey, openFrame_frame hrandom hmessage, hexpected.given, Bool.true_and,
      if_pos (bne_iff_ne.2 hother)]
  only encodingAesKey ciphertext expected message hexpected hok := by
    obtain ⟨-, e, h⟩ | ⟨plaintext, hplaintext, h⟩ := decryptAesMessage_cases cipher encodingAesKey ciphertext expected
    · rw [h] at hok
      cases hok
    · rw [h] at hok
      obtain ⟨random, hrandom, hmessage, rfl⟩ := openFrame_ok hexpected hok
      exact ⟨random, hrandom, hmessage, hplaintext⟩

/-- A text with a character for each byte, and no encryption. -/
def plainCipher : PushCipher where
  encode bytes := String.ofList (bytes.map fun b => Char.ofNat b.toNat)
  decode text := .ok (text.toList.map fun c => UInt8.ofNat c.toNat)
  encryptPadded _ _ plaintext := plaintext
  newFromSlices _ _ := .ok ()
  decryptPadded _ _ ciphertext := .ok ciphertext
  utf8Error _ := "invalid utf-8"
  decode_encode bytes := by
    rw [String.toList_ofList, List.map_map]
    refine congrArg Except.ok ((List.map_congr_left fun b _ => ?_).trans (List.map_id bytes))
    exact LossyUtf8.ofNat_eq (LossyUtf8.toNat_ofNat (.inl (Nat.lt_trans b.toNat_lt (by decide))))
  newFromSlices_ok _ _ _ _ := rfl
  decryptPadded_encryptPadded _ _ _ _ _ := rfl

/-- A key of this cipher, so that its frames are accepted. -/
theorem accepts_frames_plain :
    plainCipher.aesKey "abcdefghijklmnopqrstuvwxyz01234" =
      .ok ⟨"abcdefghijklmnopqrstuvwxyz01234=".toList.map fun c => UInt8.ofNat c.toNat, by decide⟩ ∧
      plainCipher.AcceptsFrames :=
  ⟨rfl, accepts_frames plainCipher⟩

end
end Fusions.Weixin
