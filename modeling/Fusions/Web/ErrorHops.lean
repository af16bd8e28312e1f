import Mathlib.Data.List.Basic
import Fusions.Hetuflow.Core.Json

/-! Errors on their way through services: as the business error, as the error of an RPC, and as the response of a web
server. -/
namespace Fusions.Web
open Hetuflow

/-- `connectrpc::ErrorCode`. -/
inductive ErrorCode where
  | canceled | unknown | invalidArgument | deadlineExceeded | notFound | alreadyExists | permissionDenied
  | resourceExhausted | failedPrecondition | aborted | outOfRange | unimplemented | internal | unavailable | dataLoss
  | unauthenticated
  deriving DecidableEq, Repr

structure ConnectError where
  code : ErrorCode
  message : Option String
  deriving DecidableEq, Repr

/-- The error without its source, which is only logged. -/
structure DataError where
  code : String
  message : Option String
  requestId : Option String
  details : Option Json
  deriving Repr

structure WebError where
  code : String
  message : Option String
  requestId : Option String
  details : Option Json
  deriving Repr

namespace DataError

def new (code msg : String) : DataError := ⟨code, some msg, none, none⟩

def badRequest : String → DataError := new "validation.bad_request"
def notFound : String → DataError := new "resource.not_found"
def failedPrecondition : String → DataError := new "validation.failed_precondition"
def conflicted : String → DataError := new "resource.conflict"
def unauthorized : String → DataError := new "auth.unauthorized"
def forbidden : String → DataError := new "auth.permission_denied"
def serverError : String → DataError := new "system.internal_error"
def notImplemented : String → DataError := new "system.not_implemented"

/-- `From<ConnectError>`. -/
def ofConnect (value : ConnectError) : DataError :=
  let msg := value.message.getD ""
  match value.code with
  | .canceled | .unknown => new "rpc.error" msg
  | .invalidArgument => badRequest msg
  | .deadlineExceeded => new "system.service_unavailable" msg
  | .notFound => notFound msg
  | .alreadyExists => conflicted msg
  | .permissionDenied => forbidden msg
  | .resourceExhausted => new "rate_limit.exceeded" msg
  | .failedPrecondition => failedPrecondition msg
  | .aborted => new "rpc.error" msg
  | .outOfRange => badRequest msg
  | .unimplemented => notImplemented msg
  | .internal => serverError msg
  | .unavailable => new "system.service_unavailable" msg
  | .dataLoss => new "rpc.error" msg
  | .unauthenticated => unauthorized msg

/-- `From<WebError>`. -/
def ofWeb (value : WebError) : DataError :=
  ⟨if value.code = "" then "system.internal_error" else value.code, value.message, value.requestId, value.details⟩

def toWeb (err : DataError) : WebError := ⟨err.code, err.message, err.requestId, err.details⟩

end DataError

def connectCode (code : String) : ErrorCode :=
  match code with
  | "validation.bad_request" | "validation.invalid_argument" | "validation.invalid_payload" => .invalidArgument
  | "validation.failed_precondition" => .failedPrecondition
  | "auth.unauthorized" | "auth.invalid_token" | "auth.token_expired" => .unauthenticated
  | "auth.permission_denied" => .permissionDenied
  | "resource.not_found" => .notFound
  | "resource.already_exists" | "resource.conflict" => .alreadyExists
  | "rate_limit.exceeded" | "rate_limit.retry_limit" => .resourceExhausted
  | "system.internal_error" | "channel.error" | "rpc.error" => .internal
  | "system.service_unavailable" | "system.config_error" | "system.io_error" => .unavailable
  | "system.not_implemented" => .unimplemented
  | _ => .unknown

/-- `From<DataError> for ConnectError`. -/
def DataError.toConnect (value : DataError) : ConnectError := ⟨connectCode value.code, some (value.message.getD "")⟩

def httpStatus (code : String) : Nat :=
  match code with
  | "validation.bad_request" | "validation.invalid_argument" | "validation.invalid_payload" => 400
  | "auth.unauthorized" | "auth.invalid_token" | "auth.token_expired" => 401
  | "auth.permission_denied" => 403
  | "resource.not_found" => 404
  | "resource.already_exists" | "resource.conflict" => 409
  | "rate_limit.exceeded" | "rate_limit.retry_limit" => 429
  | "system.internal_error" => 500
  | "system.service_unavailable" | "system.config_error" | "system.io_error" => 503
  | "system.not_implemented" => 501
  | "system.bad_gateway" => 502
  | "system.gateway_timeout" => 504
  | _ => 500

/-- The fields of the body; those that are not there are left out. -/
def WebError.body (e : WebError) : Json :=
  let optional (key : String) (value : Option Json) := (value.map fun v => (key, v)).toList
  .obj (("code", .str e.code) :: optional "message" (e.message.map .str) ++
    optional "request_id" (e.requestId.map .str) ++ optional "details" e.details)

def WebError.intoResponse (e : WebError) : Nat × Json := (httpStatus e.code, e.body)

/-- An error comes from one service to the next by an RPC, or as a web error. -/
inductive Hop where
  | rpc
  | web
  deriving DecidableEq, Repr

namespace DataError

def hop (e : DataError) : Hop → DataError
  | .rpc => ofConnect e.toConnect
  | .web => ofWeb e.toWeb

/-- The status of the response at the end. -/
def status (e : DataError) : Nat := e.toWeb.intoResponse.1

end DataError

/-- The codes of an RPC error for which the caller is to blame. -/
def ErrorCode.isClient : ErrorCode → Bool
  | .invalidArgument | .notFound | .alreadyExists | .permissionDenied | .resourceExhausted | .failedPrecondition
  | .outOfRange | .unauthenticated | .canceled => true
  | .unknown | .deadlineExceeded | .aborted | .unimplemented | .internal | .unavailable | .dataLoss => false

/-- The codes of a gateway, which an RPC does not carry. -/
def gatewayCodes : List String := ["system.bad_gateway", "system.gateway_timeout"]

/-- The code after an RPC. -/
def carried (code : String) : String := (DataError.ofConnect ⟨connectCode code, none⟩).code

theorem hop_rpc_code (e : DataError) : (e.hop .rpc).code = carried e.code := by
  simp only [DataError.hop, DataError.ofConnect, DataError.toConnect, carried]
  cases connectCode e.code <;> rfl

theorem hop_message (e : DataError) (hop : Hop) : (e.hop hop).message.getD "" = e.message.getD "" := by
  cases hop with
  | web => rfl
  | rpc =>
    simp only [DataError.hop, DataError.ofConnect, DataError.toConnect]
    cases connectCode e.code <;> rfl

/-- The codes that an RPC knows. -/
def connectCodes : List String :=
  ["validation.bad_request", "validation.invalid_argument", "validation.invalid_payload",
    "validation.failed_precondition", "auth.unauthorized", "auth.invalid_token", "auth.token_expired",
    "auth.permission_denied", "resource.not_found", "resource.already_exists", "resource.conflict",
    "rate_limit.exceeded", "rate_limit.retry_limit", "system.internal_error", "channel.error", "rpc.error",
    "system.service_unavailable", "system.config_error", "system.io_error", "system.not_implemented"]

theorem mem_connectCodes {code : String} (h : connectCode code ≠ .unknown) : code ∈ connectCodes := by
  unfold connectCode at h
  split at h
  all_goals first
    | decide
    | exact absurd rfl h

/-- A code that an RPC does not know has the status 500, but for a gateway's. -/
theorem httpStatus_of_unknown {code : String} (hunknown : connectCode code = .unknown) (h : code ∉ gatewayCodes) :
    httpStatus code = 500 := by
  unfold httpStatus
  split
  all_goals first
    | rfl
    | exact absurd (by decide) h
    | cases hunknown

theorem gateway {code : String} (h : code ∈ gatewayCodes) : connectCode code = .unknown ∧ 500 < httpStatus code :=
  (by decide : ∀ code ∈ gatewayCodes, connectCode code = .unknown ∧ 500 < httpStatus code) code h

/-- An RPC keeps the status of every code but a gateway's. -/
theorem httpStatus_carried {code : String} (h : code ∉ gatewayCodes) : httpStatus (carried code) = httpStatus code := by
  by_cases hunknown : connectCode code = .unknown
  · rw [httpStatus_of_unknown hunknown h, carried, hunknown]
    rfl
  · exact (by decide : ∀ code ∈ connectCodes, httpStatus (carried code) = httpStatus code) code
      (mem_connectCodes hunknown)

/-- An RPC brings a code that it knows. -/
theorem connectCode_carried (code : String) :
    connectCode (carried code) = if connectCode code = .unknown then .internal else connectCode code := by
  by_cases hunknown : connectCode code = .unknown
  · rw [if_pos hunknown, carried, hunknown]
    rfl
  · rw [if_neg hunknown]
    exact (by decide : ∀ code ∈ connectCodes, connectCode (carried code) = connectCode code) code
      (mem_connectCodes hunknown)

/-- Both fronts blame the same side, but for a precondition that has failed. -/
theorem isClient_iff (code : String) : ((connectCode code).isClient = true ↔ httpStatus code < 500) ↔
    code ≠ "validation.failed_precondition" := by
  by_cases hunknown : connectCode code = .unknown
  · have hserver : ¬ httpStatus code < 500 := by
      by_cases h : code ∈ gatewayCodes
      · exact Nat.not_lt_of_lt (gateway h).2
      · rw [httpStatus_of_unknown hunknown h]
        exact Nat.lt_irrefl 500
    have hne : code ≠ "validation.failed_precondition" := by
      rintro rfl
      cases hunknown
    simp [hunknown, ErrorCode.isClient, hne, hserver]
  · exact (by decide : ∀ code ∈ connectCodes, ((connectCode code).isClient = true ↔ httpStatus code < 500) ↔
      code ≠ "validation.failed_precondition") code (mem_connectCodes hunknown)

theorem carried_eq_iff (code : String) :
    carried code = "validation.failed_precondition" ↔ code = "validation.failed_precondition" := by
  by_cases hunknown : connectCode code = .unknown
  · rw [carried, hunknown]
    refine ⟨fun h => absurd h (by decide), ?_⟩
    rintro rfl
    cases hunknown
  · exact (by decide : ∀ code ∈ connectCodes,
      carried code = "validation.failed_precondition" ↔ code = "validation.failed_precondition") code
      (mem_connectCodes hunknown)

namespace DataError
variable (e : DataError) (hops : List Hop)

theorem hop_web_code : (e.hop .web).code = if e.code = "" then "system.internal_error" else e.code := rfl

theorem status_hops : (hops.foldl hop e).status = e.status ↔ .rpc ∉ hops ∨ e.code ∉ gatewayCodes := by
  induction hops generalizing e with
  | nil => simp
  | cons first hops ih =>
    rw [List.foldl_cons]
    cases first with
    | rpc =>
      have hcode : (e.hop .rpc).code ∉ gatewayCodes := by
        rw [hop_rpc_code, carried]
        cases connectCode e.code <;> decide
      have hstatus : (e.hop .rpc).status = httpStatus (carried e.code) := congrArg httpStatus (hop_rpc_code e)
      rw [(ih (e.hop .rpc)).2 (.inr hcode), hstatus]
      by_cases hgateway : e.code ∈ gatewayCodes
      · obtain ⟨hunknown, hlt⟩ := gateway hgateway
        have hcarried : httpStatus (carried e.code) = 500 := by
          rw [carried, hunknown]
          rfl
        rw [hcarried]
        exact ⟨fun h => absurd h (Nat.ne_of_lt hlt), fun h => by simp [hgateway] at h⟩
      · exact ⟨fun _ => .inr hgateway, fun _ => httpStatus_carried hgateway⟩
    | web =>
      by_cases hempty : e.code = ""
      · have hcode : (e.hop .web).code = "system.internal_error" := by rw [hop_web_code, if_pos hempty]
        have hstatus : (e.hop .web).status = e.status := by
          change httpStatus (e.hop .web).code = httpStatus e.code
          rw [hcode, hempty]
          rfl
        rw [← hstatus, ih, hcode, hempty]
        simp [gatewayCodes]
      · have hsame : e.hop .web = e := by simp [hop, ofWeb, toWeb, hempty]
        rw [hsame, ih]
        simp

theorem connectCode_hops : connectCode (hops.foldl hop e).code = connectCode e.code ↔
    (connectCode e.code = .unknown → .rpc ∉ hops ∧ (e.code = "" → hops = [])) := by
  induction hops generalizing e with
  | nil => simp
  | cons first hops ih =>
    rw [List.foldl_cons]
    cases first with
    | rpc =>
      have hcode := hop_rpc_code e
      have hknown : connectCode (e.hop .rpc).code ≠ .unknown := by
        rw [hcode, connectCode_carried]
        split
        · decide
        · assumption
      rw [(ih (e.hop .rpc)).2 fun h => absurd h hknown, hcode, connectCode_carried]
      by_cases hunknown : connectCode e.code = .unknown <;> simp [hunknown]
    | web =>
      by_cases hempty : e.code = ""
      · have hcode : (e.hop .web).code = "system.internal_error" := by rw [hop_web_code, if_pos hempty]
        have hinternal : connectCode (e.hop .web).code = .internal := by
          rw [hcode]
          rfl
        have hunknown : connectCode e.code = .unknown := by
          rw [hempty]
          rfl
        rw [(ih (e.hop .web)).2 fun h => by simp [hinternal] at h, hinternal, hunknown]
        simp [hempty]
      · have hsame : e.hop .web = e := by simp [hop, ofWeb, toWeb, hempty]
        rw [hsame, ih]
        simp [hempty]

theorem message_hops : (hops.foldl hop e).message.getD "" = e.message.getD "" := by
  induction hops generalizing e with
  | nil => rfl
  | cons first hops ih => rw [List.foldl_cons, ih, hop_message]

theorem precondition_hops : (hops.foldl hop e).code = "validation.failed_precondition" ↔
    e.code = "validation.failed_precondition" := by
  induction hops generalizing e with
  | nil => rfl
  | cons first hops ih =>
    rw [List.foldl_cons, ih]
    cases first with
    | rpc => rw [hop_rpc_code, carried_eq_iff]
    | web =>
      rw [hop_web_code]
      split
      · next hempty => simp [hempty]
      · rfl

/-- An error that comes through any chain of services keeps its message. It keeps its status unless an RPC carries a
gateway's code, and its RPC code unless that is unknown and an RPC carries it, or it has no code at all. At the end the
RPC code and the status blame the same side, but for a precondition that has failed, which the status blames on the
server. -/
theorem through_hops : (hops.foldl hop e).message.getD "" = e.message.getD "" ∧
    ((hops.foldl hop e).status = e.status ↔ .rpc ∉ hops ∨ e.code ∉ gatewayCodes) ∧
    ((hops.foldl hop e).toConnect.code = e.toConnect.code ↔
      (e.toConnect.code = .unknown → .rpc ∉ hops ∧ (e.code = "" → hops = []))) ∧
    (((hops.foldl hop e).toConnect.code.isClient = true ↔ (hops.foldl hop e).status < 500) ↔
      e.code ≠ "validation.failed_precondition") := by
  refine ⟨e.message_hops hops, e.status_hops hops, e.connectCode_hops hops, ?_⟩
  exact (isClient_iff (hops.foldl hop e).code).trans (not_congr (e.precondition_hops hops))

end DataError

end Fusions.Web
