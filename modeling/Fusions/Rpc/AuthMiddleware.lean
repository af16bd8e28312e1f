import Fusions.Rpc.HeaderMap

/-! The authorizer of the RPC layer: it strips the configured identity headers, checks who calls, and puts
trusted ones in their place. -/
namespace Fusions.Rpc

/-- How a claim is read. -/
inductive ClaimSource where
  | subject
  | string (claim : String)
  | i64 (claim : String)
  | stringOrI64 (claim : String)
  deriving DecidableEq, Repr

structure ClaimMapping where
  header : String
  source : ClaimSource
  deriving DecidableEq, Repr

/-- A principal that an inner layer has verified, carried as a request extension. -/
structure TrustedSubject where
  principal : String
  identityHeaders : List (String × String)
  deriving DecidableEq, Repr

structure AuthConfig where
  excludePaths : List String := []
  preserveIdentityHeadersForPaths : List String := []
  excludeRpcs : List (String × String) := []
  trustedSubjectRpcs : List (String × String) := []
  claimMappings : List ClaimMapping := []
  cookieTokenName : String := "access_token"
  errorCode : String := "unauthenticated"
  errorMessage : String := "Invalid or expired token"
  deriving DecidableEq, Repr

inductive ClaimValue where
  | string (value : String)
  | int (value : Int)
  | other
  deriving DecidableEq, Repr

/-- The claims of a token. -/
structure CtxPayload where
  claims : List (String × ClaimValue)
  deriving DecidableEq, Repr

namespace CtxPayload
variable (payload : CtxPayload)

def getStr (key : String) : Option String :=
  match payload.claims.lookup key with
  | some (.string value) => some value
  | _ => none

def getI64 (key : String) : Option Int :=
  match payload.claims.lookup key with
  | some (.int value) => if -2 ^ 63 ≤ value ∧ value < 2 ^ 63 then some value else none
  | _ => none

def getSubject : Option String := payload.getStr "sub"

/-- A time in seconds since the epoch. -/
def getTime (key : String) : Option Nat :=
  match payload.claims.lookup key with
  | some (.int value) => if 0 ≤ value ∧ value < 2 ^ 64 then some value.toNat else none
  | _ => none

end CtxPayload

def ClaimSource.read (payload : CtxPayload) : ClaimSource → Option String
  | .subject => payload.getSubject
  | .string claim => payload.getStr claim
  | .i64 claim => (payload.getI64 claim).map toString
  | .stringOrI64 claim => (payload.getStr claim).or ((payload.getI64 claim).map toString)

/-- A request. Its method and body pass through. -/
@[ext] structure Request where
  method : String
  path : String
  headers : HeaderMap
  trustedSubject : Option TrustedSubject
  body : String

structure Response where
  status : Nat
  contentType : String
  body : String
  deriving DecidableEq, Repr

/-- The ways in which a request does not go on. -/
inductive Refusal where
  | rejected (response : Response)
  | panicked (message : String)
  deriving DecidableEq, Repr

/-- The escapes of a JSON string. -/
def jsonEscape (c : Char) : String :=
  match c.toNat with
  | 8 => "\\b"
  | 9 => "\\t"
  | 10 => "\\n"
  | 12 => "\\f"
  | 13 => "\\r"
  | 34 => "\\\""
  | 92 => "\\\\"
  | n => if n < 32 then String.ofList ['\\', 'u', '0', '0', Nat.digitChar (n / 16), Nat.digitChar (n % 16)]
    else String.singleton c

def jsonString (text : String) : String := "\"" ++ String.join (text.toList.map jsonEscape) ++ "\""

def unauthorizedResponse (config : AuthConfig) (msg : String) : Response :=
  ⟨401, "application/json",
    "\x7b\"code\":" ++ jsonString config.errorCode ++ ",\"message\":" ++ jsonString msg ++ "\x7d"⟩

def startsWith (text start : String) : Bool := start.toList.isPrefixOf text.toList

/-- `parse_rpc_path`: the service and the method of a path. -/
def parseRpcPath (path : String) : Option (String × String) :=
  let path := (path.toList.dropWhile (· == '/')).reverse
  match path.dropWhile (· != '/') with
  | [] => none
  | _ :: rest =>
    let service := rest.reverse
    let method := (path.takeWhile (· != '/')).reverse
    if service.contains '.' && !method.isEmpty then some (String.ofList service, String.ofList method) else none

def isRpcOf (path : String) (rpcs : List (String × String)) : Bool :=
  match parseRpcPath path with
  | some rpc => rpcs.contains rpc
  | none => false

def trim (text : List Char) : List Char :=
  ((text.dropWhile Char.isWhitespace).reverse.dropWhile Char.isWhitespace).reverse

def extractCookieValue (headers : HeaderMap) (name : String) : Option String := do
  let text ← (← headers.get cookie).toStr
  (text.toList.splitOn ';').findSome? fun part =>
    let part := trim part
    match part.dropWhile (· != '=') with
    | [] => none
    | _ :: value =>
      if part.takeWhile (· != '=') = name.toList ∧ !value.isEmpty then some (String.ofList value) else none

def extractBearerToken (headers : HeaderMap) (cookieTokenName : String) : Except String String :=
  match headers.get authorization with
  | some header =>
    match header.toStr with
    | none => .error "Invalid authorization header"
    | some text =>
      match "Bearer ".toList.isPrefixOf? text.toList with
      | some token => .ok (String.ofList token)
      | none => .error "Invalid authorization scheme, expected Bearer"
  | none =>
    match extractCookieValue headers cookieTokenName with
    | some token => .ok token
    | none => .error "Missing authorization header"

/-- `AuthTokenResolver`, as a function of the token. -/
abbrev TokenResolver := String → Except Unit (List (String × String))

structure AuthAuthorizer (Key : Type) where
  security : Option Key
  config : AuthConfig
  resolver : Option TokenResolver

/-- The tolerance of a clock, in seconds. -/
def clockLeeway : Nat := 60

section
variable {Key : Type} (decryptJweDir : Key → String → Option CtxPayload) (now : Nat)

/-- `decrypt_jwt`, at a time in nanoseconds. -/
def decryptJwt (key : Key) (token : String) : Option CtxPayload :=
  (decryptJweDir key token).filter fun payload =>
    ((payload.getTime "exp").all fun expires => now ≤ (expires + clockLeeway) * 10 ^ 9) &&
      (payload.getTime "nbf").all fun notBefore => notBefore * 10 ^ 9 ≤ now + clockLeeway * 10 ^ 9

namespace AuthAuthorizer
variable (self : AuthAuthorizer Key) (request : Request)

def unauthorized (msg : String) : Refusal := .rejected (unauthorizedResponse self.config msg)

/-- One identity header; a value that is none is refused. -/
def inject (headers : HeaderMap) (name value : String) : Except Refusal HeaderMap :=
  match HeaderValue.parse value with
  | none => .error (self.unauthorized self.config.errorMessage)
  | some value =>
    match headers.insert name value with
    | some headers => .ok headers
    | none => .error (.panicked "static str is invalid name")

/-- `strip_configured_identity_headers`. -/
def strip : Request :=
  { request with
    headers := self.config.claimMappings.foldl (fun headers mapping => headers.remove mapping.header) request.headers }

def admitTrusted (subject : TrustedSubject) : Except Refusal Request := do
  let headers ← subject.identityHeaders.foldlM (fun headers (name, value) => self.inject headers name value)
    request.headers
  return { request with headers := headers }

def admitResolved (resolver : TokenResolver) (token : String) : Except Refusal Request :=
  match resolver token with
  | .error () => .error (self.unauthorized self.config.errorMessage)
  | .ok identity => do
    let headers ← identity.foldlM (fun headers (name, value) => self.inject (headers.remove name) name value)
      request.headers
    return { request with headers := headers }

def admitClaims (payload : CtxPayload) : Except Refusal Request := do
  let headers ← self.config.claimMappings.foldlM (fun headers mapping =>
    match mapping.source.read payload with
    | some value => self.inject headers mapping.header value
    | none => .ok headers) request.headers
  return { request with headers := headers }

/-- The bearer or cookie token, by its mode. -/
def admitToken : Except Refusal Request :=
  match extractBearerToken request.headers self.config.cookieTokenName with
  | .error msg => .error (self.unauthorized msg)
  | .ok token =>
    match self.resolver with
    | some resolver => self.admitResolved request resolver token
    | none =>
      match self.security.bind fun key => decryptJwt decryptJweDir now key token with
      | none => .error (self.unauthorized self.config.errorMessage)
      | some payload => self.admitClaims request payload

/-- What `authorize` does once the identity headers are dealt with. -/
def admitRequest : Except Refusal Request :=
  if self.config.excludePaths.any (startsWith request.path) then .ok request
  else if isRpcOf request.path self.config.excludeRpcs then .ok request
  else
    match request.trustedSubject with
    | some subject =>
      if isRpcOf request.path self.config.trustedSubjectRpcs then self.admitTrusted request subject
      else self.admitToken decryptJweDir now request
    | none => self.admitToken decryptJweDir now request

def preserves (path : String) : Bool := self.config.preserveIdentityHeadersForPaths.any (startsWith path)

def authorize : Except Refusal Request :=
  self.admitRequest decryptJweDir now (if self.preserves request.path then request else self.strip request)

end AuthAuthorizer

end

end Fusions.Rpc
