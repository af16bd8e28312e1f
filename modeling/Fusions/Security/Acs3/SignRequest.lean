import Fusions.Rpc.AuthMiddleware
import Fusions.Rpc.HeaderText
import Fusions.Security.Acs3.CanonicalQuery

/-! How an ACS3 request is signed, step by step on its headers. -/
namespace Fusions.Security.Acs3
open Fusions.Library Fusions.Rpc

/-- The entries of a header map in their order. -/
abbrev Headers := List (HeaderName × HeaderValue)

namespace Headers

def values (headers : Headers) (name : HeaderName) : List HeaderValue :=
  (headers.filter fun entry => entry.1 == name).map Prod.snd

/-- `HeaderMap::insert`, in the place of the values that the name has. -/
def insert (name : HeaderName) (value : HeaderValue) : Headers → Headers
  | [] => [(name, value)]
  | entry :: headers =>
    if entry.1 = name then (name, value) :: headers.filter fun entry => entry.1 != name
    else entry :: insert name value headers

@[simp] theorem values_nil (name : HeaderName) : values [] name = [] := rfl

theorem values_cons (entry : HeaderName × HeaderValue) (headers : Headers) (name : HeaderName) :
    values (entry :: headers) name = if entry.1 = name then entry.2 :: headers.values name else headers.values name := by
  by_cases hname : entry.1 = name <;> simp [values, hname]

theorem mem_values {headers : Headers} {name : HeaderName} {value : HeaderValue} :
    value ∈ headers.values name ↔ (name, value) ∈ headers := by
  simp [values]

theorem values_filter_ne (headers : Headers) (name n : HeaderName) :
    values (headers.filter fun entry => entry.1 != name) n = if n = name then [] else headers.values n := by
  rw [values, List.filter_filter]
  split
  · next heq => simp [heq]
  · next hne =>
    have hsame : ∀ entry : HeaderName × HeaderValue,
        (entry.1 == n && entry.1 != name) = (entry.1 == n) := by
      intro entry
      by_cases hn : entry.1 = n
      · simp [hn, hne]
      · simp [hn]
    simp only [hsame]
    rfl

theorem values_insert (headers : Headers) (name n : HeaderName) (value : HeaderValue) :
    values (headers.insert name value) n = if n = name then [value] else headers.values n := by
  induction headers with
  | nil =>
    rw [insert, values_cons, values_nil]
    simp only [eq_comm]
  | cons entry headers ih =>
    rw [insert]
    by_cases hentry : entry.1 = name
    · rw [if_pos hentry, values_cons, values_filter_ne, values_cons, hentry]
      by_cases hn : n = name
      · simp [hn]
      · simp [hn, Ne.symm hn]
    · rw [if_neg hentry, values_cons, values_cons, ih]
      by_cases hn : n = name
      · simp [hn, hentry]
      · simp [hn]

end Headers

def host : HeaderName := ⟨"host", by decide +kernel⟩
def xAcsContentSha256 : HeaderName := ⟨"x-acs-content-sha256", by decide +kernel⟩
def xAcsDate : HeaderName := ⟨"x-acs-date", by decide +kernel⟩
def xAcsSignatureNonce : HeaderName := ⟨"x-acs-signature-nonce", by decide +kernel⟩
def xAcsSecurityToken : HeaderName := ⟨"x-acs-security-token", by decide +kernel⟩

def acs3Algorithm : String := "ACS3-HMAC-SHA256"

structure Credential where
  accessKeyId : String
  accessKeySecret : String
  securityToken : Option String

structure RequestSigner (DateTime : Type) where
  signingTime : Option DateTime
  signatureNonce : Option String
  payloadHash : Option String

/-- A URI as its path and query are encoded, with the host of its authority. -/
structure Uri where
  path : String
  query : Option String
  host : Option String

structure Parts where
  method : String
  uri : Uri
  headers : Headers

inductive SignError where
  | credentialInvalid (msg : String)
  | requestInvalid (msg : String)
  | panicked
  deriving DecidableEq, Repr

def toStrError : String := "failed to convert header to a str"
def invalidHeaderValue : String := "failed to parse header value"

def isHexText (text : String) : Bool := text.toList.all "0123456789abcdef".toList.contains

/-- How dates are written, and the two hashes in hexadecimal digits. -/
structure Platform (DateTime : Type) where
  format : DateTime → String
  hexSha256 : List UInt8 → String
  hexHmacSha256 : List UInt8 → List UInt8 → String
  hex_sha256 : ∀ bytes, isHexText (hexSha256 bytes) = true
  hex_hmac : ∀ key bytes, isHexText (hexHmacSha256 key bytes) = true

/-- A step on the headers, which keeps what it wrote when it fails. -/
abbrev Signing := ExceptT SignError (StateM Headers)

def Signing.runOn {α : Type} (step : Signing α) (headers : Headers) : Except SignError α × Headers := step headers

def insertHeader (context : String) (name : HeaderName) (value : String) : Signing Unit :=
  match HeaderValue.parse value with
  | some value => modify (Headers.insert name value)
  | none => throw (.requestInvalid (context ++ invalidHeaderValue))

def insertIfMissing (name : HeaderName) (value : String) : Signing Unit := do
  if ((← get).values name).isEmpty then
    insertHeader ("header " ++ name.name ++ " value invalid: ") name value

def headerPair (entry : HeaderName × HeaderValue) : Except SignError (String × String) :=
  match entry.2.toStr with
  | some text => .ok (entry.1.name.map Char.toLower, String.ofList (trim text.toList))
  | none => .error (.requestInvalid ("header " ++ entry.1.name ++ " not ASCII: " ++ toStrError))

/-- All headers but the authorization, by their names. -/
def headerPairs (headers : Headers) : Except SignError (List (String × String)) := do
  let pairs ← (headers.filter fun entry => entry.1.name.map Char.toLower != "authorization").mapM headerPair
  return pairs.mergeSort fun a b => a.1 ≤ b.1

def canonicalHeaders (pairs : List (String × String)) : String :=
  String.join (pairs.map fun pair => pair.1 ++ ":" ++ pair.2 ++ "\n")

def signedHeaders (pairs : List (String × String)) : String := ";".intercalate (pairs.map Prod.fst)

section
variable {DateTime : Type} (platform : Platform DateTime)

/-- The text that is signed, its signature, and the authorization header. -/
def signAcs3 (accessKeyId accessKeySecret method canonicalUri canonicalQuery canonicalHeaders signedHeaders
    payloadHash : String) : String × String × String :=
  let canonicalRequest := method ++ "\n" ++ canonicalUri ++ "\n" ++ canonicalQuery ++ "\n" ++ canonicalHeaders ++ "\n" ++
    signedHeaders ++ "\n" ++ payloadHash
  let stringToSign := acs3Algorithm ++ "\n" ++ platform.hexSha256 canonicalRequest.toUTF8.toList
  let signature := platform.hexHmacSha256 accessKeySecret.toUTF8.toList stringToSign.toUTF8.toList
  let authorization := acs3Algorithm ++ " Credential=" ++ accessKeyId ++ ",SignedHeaders=" ++ signedHeaders ++
    ",Signature=" ++ signature
  (stringToSign, signature, authorization)

namespace RequestSigner
variable (signer : RequestSigner DateTime) (now : DateTime) (uuid : String)

/-- The hash of the payload: the one that was injected, the one in the headers, or that of no payload. -/
def payloadHashOf : Signing String := do
  match signer.payloadHash with
  | some hash => return hash
  | none =>
    match ((← get).values xAcsContentSha256).head? with
    | some value =>
      match value.toStr with
      | some hash => return hash
      | none => throw (.requestInvalid ("x-acs-content-sha256 not ASCII: " ++ toStrError))
    | none => return platform.hexSha256 []

def insertHost (uri : Uri) : Signing Unit := do
  if ((← get).values host).isEmpty then
    if let some authority := uri.host then
      insertHeader "invalid host header from URI: " host authority

/-- An injected hash replaces the one in the headers, so that what is signed is what is sent. -/
def insertPayloadHash (payloadHash : String) : Signing Unit :=
  if signer.payloadHash.isSome then
    insertHeader "invalid x-acs-content-sha256: " xAcsContentSha256 payloadHash
  else insertIfMissing xAcsContentSha256 payloadHash

def insertToken (cred : Credential) : Signing Unit := do
  if let some token := cred.securityToken then
    insertIfMissing xAcsSecurityToken token

/-- The headers that come before the signature. -/
def fillHeaders (cred : Credential) (uri : Uri) (payloadHash : String) : Signing Unit := do
  insertHost uri
  insertIfMissing xAcsDate (platform.format (signer.signingTime.getD now))
  insertIfMissing xAcsSignatureNonce (signer.signatureNonce.getD uuid)
  signer.insertPayloadHash payloadHash
  insertToken cred

/-- The signature over the headers as they are. -/
def authorize (cred : Credential) (method : String) (uri : Uri) (payloadHash : String) : Signing Unit := do
  let some canonicalUri := canonicalizeUri uri.path | throw .panicked
  let canonicalQuery := canonicalizeQuery (uri.query.getD "")
  let pairs ← liftExcept (headerPairs (← get))
  let canonicalRequest := method ++ "\n" ++ canonicalUri ++ "\n" ++ canonicalQuery ++ "\n" ++ canonicalHeaders pairs ++
    "\n" ++ signedHeaders pairs ++ "\n" ++ payloadHash
  let stringToSign := acs3Algorithm ++ "\n" ++ platform.hexSha256 canonicalRequest.toUTF8.toList
  let signature := platform.hexHmacSha256 cred.accessKeySecret.toUTF8.toList stringToSign.toUTF8.toList
  insertHeader "Authorization header invalid: " authorization (acs3Algorithm ++ " Credential=" ++ cred.accessKeyId ++
    ",SignedHeaders=" ++ signedHeaders pairs ++ ",Signature=" ++ signature)

def signHeaders (method : String) (uri : Uri) (credential : Option Credential) : Signing Unit := do
  let some cred := credential | throw (.credentialInvalid "aliyun-acs3 requires credential")
  let payloadHash ← signer.payloadHashOf platform
  signer.fillHeaders platform now uuid cred uri payloadHash
  authorize platform cred method uri payloadHash

/-- `sign_request`, with the headers it leaves. -/
def signRequest (req : Parts) (credential : Option Credential) : Except SignError Unit × Parts :=
  let (result, headers) := (signer.signHeaders platform now uuid req.method req.uri credential).runOn req.headers
  (result, { req with headers })

end RequestSigner

end

end Fusions.Security.Acs3
