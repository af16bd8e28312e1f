import Fusions.Rpc.IdentityHeaders

/-! The layer that asks for a header in some contexts, and what it sees behind the layer that says who calls. -/
namespace Fusions.Rpc

structure ContextValidationConfig where
  contextHeader : String
  triggerValue : String
  requireHeader : String
  excludePaths : List String
  excludeRpcs : List (String × String)
  rejectStatus : Nat
  errorCode : String
  errorMessage : String
  deriving DecidableEq, Repr

/-- A header as a text, empty if it is missing or no text. -/
def HeaderMap.text (headers : HeaderMap) (name : String) : String :=
  (((HeaderName.parse name).bind headers.get).bind HeaderValue.toStr).getD ""

/-- `StatusCode::from_u16`, or 403. -/
def statusOr403 (status : Nat) : Nat := if 100 ≤ status ∧ status < 1000 then status else 403

namespace ContextValidationConfig
variable (config : ContextValidationConfig)

def rejectResponse : Response :=
  ⟨statusOr403 config.rejectStatus, "application/json",
    "\x7b\"code\":" ++ jsonString config.errorCode ++ ",\"message\":" ++ jsonString config.errorMessage ++ "\x7d"⟩

def exempts (path : String) : Bool :=
  config.excludePaths.any (startsWith path) || isRpcOf path config.excludeRpcs

/-- `ContextValidationAuthorizer::authorize`. -/
def authorize (request : Request) : Except Refusal Request :=
  if config.excludePaths.any (startsWith request.path) then .ok request
  else if isRpcOf request.path config.excludeRpcs then .ok request
  else if request.headers.text config.contextHeader = config.triggerValue ∧
      request.headers.text config.requireHeader = "" then .error (.rejected config.rejectResponse)
  else .ok request

end ContextValidationConfig

/-- What an identity says of a header, as far as it is text. -/
def identityText (identity : List (String × String)) (name : String) : String :=
  ((((HeaderName.parse name).bind (identityValue identity)).bind HeaderValue.parse).bind HeaderValue.toStr).getD ""

/-- A header with a value that the services can read says what the identity does. -/
theorem identityText_of_visible {identity : List (String × String)} {name value : String} {n : HeaderName}
    (hname : HeaderName.parse name = some n) (hvalue : identityValue identity n = some value) (hvisible : Visible value) :
    identityText identity name = value := by
  obtain ⟨v, hv, htext⟩ := readsBack_iff.2 hvisible
  simp [identityText, hname, hvalue, hv, htext]

namespace AuthAuthorizer
variable {Key : Type} {self : AuthAuthorizer Key} {decryptJweDir : Key → String → Option CtxPayload} {now : Nat}
  {request out : Request}

/-- The claim mappings name a header. -/
def Maps (self : AuthAuthorizer Key) (name : String) : Prop :=
  ∀ n, HeaderName.parse name = some n →
    ∃ mapping ∈ self.config.claimMappings, HeaderName.parse mapping.header = some n

/-- A request is let in unchecked only if it needs no identity. -/
theorem eq_of_not_authenticated (hnone : self.authenticated decryptJweDir now request = none)
    (h : self.admitRequest decryptJweDir now request = .ok out) : out = request := by
  unfold authenticated at hnone
  rw [admitRequest_eq] at h
  by_cases hexempt : self.config.exempts request.path = true
  · rw [if_pos hexempt] at h
    exact (Except.ok.inj h).symm
  rw [if_neg hexempt] at h hnone
  cases hsubject : self.config.admitsSubject request with
  | some subject =>
    rw [hsubject] at hnone
    cases hnone
  | none =>
    rw [hsubject] at h hnone
    dsimp only at h hnone
    unfold admitToken at h
    cases htoken : extractBearerToken request.headers self.config.cookieTokenName with
    | error e =>
      rw [htoken] at h
      cases h
    | ok token =>
      rw [htoken] at h hnone
      dsimp only at h hnone
      cases hresolver : self.resolver with
      | some resolver =>
        rw [hresolver] at h hnone
        dsimp only at h hnone
        unfold admitResolved at h
        cases hresolved : resolver token with
        | error e =>
          rw [hresolved] at h
          cases h
        | ok identity =>
          rw [hresolved] at hnone
          cases hnone
      | none =>
        rw [hresolver] at h hnone
        dsimp only at h hnone
        rw [Option.map_eq_none_iff.1 hnone] at h
        cases h

variable (self decryptJweDir now request)

/-- The identity headers of who calls; there are none where no identity is needed. -/
def identity : List (String × String) := (self.authenticated decryptJweDir now (self.entering request)).getD []

variable {self decryptJweDir now request}

/-- A request that goes on has its path, and in each header that the mappings name what the identity says of it. -/
theorem values_authorize (hpath : self.preserves request.path = false)
    (h : self.authorize decryptJweDir now request = .ok out) : out.path = request.path ∧
    ∀ n, (∃ mapping ∈ self.config.claimMappings, HeaderName.parse mapping.header = some n) →
      (identityValue (self.identity decryptJweDir now request) n = none ∧ out.headers.values n = []) ∨
        ∃ value v, identityValue (self.identity decryptJweDir now request) n = some value ∧
          HeaderValue.parse value = some v ∧ out.headers.values n = [v] := by
  have hentering : self.entering request = self.strip request := by
    rw [entering, hpath, if_neg Bool.false_ne_true]
  have hadmit : self.admitRequest decryptJweDir now (self.strip request) = .ok out := by
    rw [authorize, hpath, if_neg Bool.false_ne_true] at h
    exact h
  have hstripped : ∀ n, (∃ mapping ∈ self.config.claimMappings, HeaderName.parse mapping.header = some n) →
      (self.strip request).headers.values n = [] := fun n hn => by rw [values_strip, if_pos hn]
  rw [identity, hentering]
  cases hidentity : self.authenticated decryptJweDir now (self.strip request) with
  | none =>
    obtain rfl := eq_of_not_authenticated hidentity hadmit
    exact ⟨rfl, fun n hn => .inl ⟨rfl, hstripped n hn⟩⟩
  | some identity =>
    obtain ⟨step, hstep, hfold⟩ := admitRequest_of_authenticated hidentity
    rw [hfold] at hadmit
    cases hheaders : identity.foldlM step (self.strip request).headers with
    | error e =>
      rw [hheaders] at hadmit
      cases hadmit
    | ok headers =>
      rw [hheaders] at hadmit
      obtain rfl := Except.ok.inj hadmit
      refine ⟨rfl, fun n hn => ?_⟩
      rcases values_foldlM hstep.values hheaders n with ⟨hnone, hvalues⟩ | hsome
      · exact .inl ⟨hnone, hvalues.trans (hstripped n hn)⟩
      · exact .inr hsome

theorem text_authorize {name : String} (hpath : self.preserves request.path = false) (hmaps : self.Maps name)
    (h : self.authorize decryptJweDir now request = .ok out) :
    out.headers.text name = identityText (self.identity decryptJweDir now request) name := by
  obtain ⟨-, hvalues⟩ := values_authorize hpath h
  unfold HeaderMap.text identityText
  cases hname : HeaderName.parse name with
  | none => rfl
  | some n =>
    rw [Option.bind_some, Option.bind_some]
    rcases hvalues n (hmaps n hname) with ⟨hnone, hempty⟩ | ⟨value, v, hvalue, hparse, hlist⟩
    · simp [HeaderMap.get, hnone, hempty]
    · simp [HeaderMap.get, hvalue, hparse, hlist]

/-- Behind the layer that says who calls, on a path whose identity headers are not preserved, the context layer decides
by the path and the identity alone, whatever headers the client sends: a request goes on unchanged unless its path is
checked, the identity has the triggering context, and it has no text for the header that this context needs. -/
theorem context_of_identity (config : ContextValidationConfig) (hpath : self.preserves request.path = false)
    (hcontext : self.Maps config.contextHeader) (hrequire : self.Maps config.requireHeader)
    (h : self.authorize decryptJweDir now request = .ok out) :
    config.authorize out =
      if config.exempts request.path = false ∧
        identityText (self.identity decryptJweDir now request) config.contextHeader = config.triggerValue ∧
        identityText (self.identity decryptJweDir now request) config.requireHeader = "" then
        .error (.rejected config.rejectResponse)
      else .ok out := by
  obtain ⟨hsame, -⟩ := values_authorize hpath h
  rw [ContextValidationConfig.authorize, text_authorize hpath hcontext h, text_authorize hpath hrequire h, hsame,
    ContextValidationConfig.exempts]
  cases config.excludePaths.any (startsWith request.path) <;> cases isRpcOf request.path config.excludeRpcs <;> simp

private def byFacility : AuthAuthorizer Unit :=
  ⟨some (), { claimMappings := [⟨"X-Context-Type", .string "context"⟩, ⟨"X-Facility-Id", .string "facility"⟩] }, none⟩

private def facilityContext : ContextValidationConfig :=
  ⟨"x-context-type", "facility", "x-facility-id", ["/health"], [], 403, "permission_denied", "facility context mismatch"⟩

private def contextType : HeaderName := ⟨"x-context-type", by decide +kernel⟩

private def facilityId : HeaderName := ⟨"x-facility-id", by decide +kernel⟩

/-- A token of a facility context without a facility, and a facility of the caller's choice. -/
private def listsResidents : Request :=
  ⟨"POST", "/care.v1.Residents/List", ⟨fun n =>
    if n = authorization then (HeaderValue.parse "Bearer t").toList
    else if n = facilityId then (HeaderValue.parse "f-9").toList else []⟩, none, ""⟩

private def decodeContext (_ : Unit) (token : String) : Option CtxPayload :=
  if token = "t" then some ⟨[("context", .string "facility")]⟩ else none

/-- The facility that the caller sends does not count. -/
theorem context_of_identity_forged : ∃ out, byFacility.authorize decodeContext 0 listsResidents = .ok out ∧
    facilityContext.authorize out = .error (.rejected ⟨403, "application/json",
      "\x7b\"code\":\"permission_denied\",\"message\":\"facility context mismatch\"\x7d"⟩) := by
  have hisOk : (byFacility.authorize decodeContext 0 listsResidents).isOk = true := by decide +kernel
  cases hout : byFacility.authorize decodeContext 0 listsResidents with
  | error e =>
    rw [hout] at hisOk
    cases hisOk
  | ok out =>
    have htype : HeaderName.parse "x-context-type" = some contextType := by decide +kernel
    have hid : HeaderName.parse "x-facility-id" = some facilityId := by decide +kernel
    have hcontext : byFacility.Maps "x-context-type" := by
      have hparse : HeaderName.parse "X-Context-Type" = some contextType := by decide +kernel
      exact fun n hn => ⟨⟨"X-Context-Type", .string "context"⟩, List.mem_cons_self, (hparse.trans htype.symm).trans hn⟩
    have hrequire : byFacility.Maps "x-facility-id" := by
      have hparse : HeaderName.parse "X-Facility-Id" = some facilityId := by decide +kernel
      exact fun n hn => ⟨⟨"X-Facility-Id", .string "facility"⟩, List.mem_cons_of_mem _ List.mem_cons_self,
        (hparse.trans hid.symm).trans hn⟩
    have hidentity : byFacility.identity decodeContext 0 listsResidents = [("X-Context-Type", "facility")] := by
      decide +kernel
    have htriggered : identityText [("X-Context-Type", "facility")] "x-context-type" = "facility" :=
      identityText_of_visible htype (by decide +kernel) (by decide +kernel)
    have hmissing : identityText [("X-Context-Type", "facility")] "x-facility-id" = "" := by
      have hnone : identityValue [("X-Context-Type", "facility")] facilityId = none := by decide +kernel
      simp [identityText, hid, hnone]
    have hresponse : facilityContext.rejectResponse = ⟨403, "application/json",
        "\x7b\"code\":\"permission_denied\",\"message\":\"facility context mismatch\"\x7d"⟩ := by
      decide +kernel
    have hgate := context_of_identity facilityContext rfl hcontext hrequire hout
    rw [hidentity, if_pos ⟨by decide +kernel, htriggered, hmissing⟩, hresponse] at hgate
    exact ⟨out, rfl, hgate⟩

end AuthAuthorizer

end Fusions.Rpc
