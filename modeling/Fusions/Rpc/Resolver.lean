import Mathlib.Data.List.Induction
import Fusions.Rpc.Forgery

/-! The opaque-token mode: which headers of a resolver a forwarded request carries, and whose they are. -/
namespace Fusions.Rpc

/-- What a list of identity headers says last of a name. -/
def identityValue (identity : List (String × String)) (n : HeaderName) : Option String :=
  (identity.reverse.find? fun header => HeaderName.parse header.1 = some n).map Prod.snd

@[simp] theorem identityValue_nil (n : HeaderName) : identityValue [] n = none := rfl

/-- The header is one that the resolver returns for some token. -/
def TokenResolver.Returns (resolver : TokenResolver) (n : HeaderName) : Prop :=
  ∃ token identity, resolver token = .ok identity ∧ ∃ header ∈ identity, HeaderName.parse header.1 = some n

/-- `AuthLayer::with_token_resolver`. -/
def AuthAuthorizer.withTokenResolver (Key : Type) (config : AuthConfig) (resolver : TokenResolver) :
    AuthAuthorizer Key :=
  ⟨none, config, some resolver⟩

/-- The request needs no identity. -/
def AuthConfig.exempts (config : AuthConfig) (path : String) : Bool :=
  config.excludePaths.any (startsWith path) || isRpcOf path config.excludeRpcs

/-- The subject that lets the request in. -/
def AuthConfig.admitsSubject (config : AuthConfig) (request : Request) : Option TrustedSubject :=
  if config.exempts request.path then none
  else request.trustedSubject.filter fun _ => isRpcOf request.path config.trustedSubjectRpcs

/-- What the resolver returns while the request is handled. It is asked for the token of a request that is not
let in before. -/
def AuthConfig.resolved (config : AuthConfig) (resolver : TokenResolver) (request : Request) :
    List (String × String) :=
  if config.exempts request.path || (config.admitsSubject request).isSome then []
  else match extractBearerToken request.headers config.cookieTokenName with
    | .ok token => (resolver token).toOption.getD []
    | .error _ => []

namespace AuthAuthorizer
variable {Key : Type} {self : AuthAuthorizer Key} {request out : Request} {headers headers' : HeaderMap}

theorem values_inject {name value : String} (h : self.inject headers name value = .ok headers') :
    ∃ n v, HeaderName.parse name = some n ∧ HeaderValue.parse value = some v ∧
      ∀ m, headers'.values m = if m = n then [v] else headers.values m := by
  unfold inject at h
  split at h
  · cases h
  next v hvalue =>
  split at h
  · next hinsert =>
    cases h
    obtain ⟨n, hname, rfl⟩ := Option.map_eq_some_iff.1 hinsert
    refine ⟨n, v, hname, hvalue, fun m => ?_⟩
    by_cases hm : m = n
    · simp [HeaderMap.set, hm]
    · simp [HeaderMap.set, hm]
  · cases h

/-- Headers put in one after another: the last one of a name stands, the other names are untouched. -/
theorem values_foldlM {step : HeaderMap → String × String → Except Refusal HeaderMap}
    (hstep : ∀ headers header headers', step headers header = .ok headers' →
      ∃ n v, HeaderName.parse header.1 = some n ∧ HeaderValue.parse header.2 = some v ∧
        ∀ m, headers'.values m = if m = n then [v] else headers.values m)
    {identity : List (String × String)} (h : identity.foldlM step headers = .ok headers') (n : HeaderName) :
    (identityValue identity n = none ∧ headers'.values n = headers.values n) ∨
      ∃ value v, identityValue identity n = some value ∧ HeaderValue.parse value = some v ∧
        headers'.values n = [v] := by
  induction identity using List.reverseRecOn generalizing headers' with
  | nil =>
    cases h
    exact .inl ⟨rfl, rfl⟩
  | append_singleton identity header ih =>
    rw [List.foldlM_append] at h
    cases hfold : identity.foldlM step headers with
    | error e =>
      rw [hfold] at h
      cases h
    | ok mid =>
      rw [hfold] at h
      have hlast : (step mid header >>= pure) = .ok headers' := h
      rw [bind_pure] at hlast
      obtain ⟨m, v, hname, hvalue, hvalues⟩ := hstep _ _ _ hlast
      by_cases hn : n = m
      · refine .inr ⟨header.2, v, ?_, hvalue, ?_⟩
        · simp [identityValue, hname, hn]
        · rw [hvalues, if_pos hn]
      · have hskip : identityValue (identity ++ [header]) n = identityValue identity n := by
          simp [identityValue, hname, Ne.symm hn]
        rw [hskip, hvalues, if_neg hn]
        exact ih hfold

/-- A request with headers put in by one of the loops. -/
private theorem values_injected {step : HeaderMap → String × String → Except Refusal HeaderMap}
    (hstep : ∀ headers header headers', step headers header = .ok headers' →
      ∃ n v, HeaderName.parse header.1 = some n ∧ HeaderValue.parse header.2 = some v ∧
        ∀ m, headers'.values m = if m = n then [v] else headers.values m)
    {identity : List (String × String)}
    (h : (do
      let headers ← identity.foldlM step request.headers
      return { request with headers := headers }) = .ok out) (n : HeaderName) :
    (identityValue identity n = none ∧ out.headers.values n = request.headers.values n) ∨
      ∃ value v, identityValue identity n = some value ∧ HeaderValue.parse value = some v ∧
        out.headers.values n = [v] := by
  cases hfold : identity.foldlM step request.headers with
  | error e =>
    rw [hfold] at h
    cases h
  | ok headers =>
    rw [hfold] at h
    cases h
    exact values_foldlM hstep hfold n

section
variable {config : AuthConfig} {resolver : TokenResolver} {decryptJweDir : Key → String → Option CtxPayload}
  {now : Nat}

theorem admitRequest_eq : self.admitRequest decryptJweDir now request =
    if self.config.exempts request.path then .ok request
    else match self.config.admitsSubject request with
      | some subject => self.admitTrusted request subject
      | none => self.admitToken decryptJweDir now request := by
  unfold admitRequest AuthConfig.admitsSubject AuthConfig.exempts
  by_cases hpath : self.config.excludePaths.any (startsWith request.path) = true
  · simp only [hpath, if_true, Bool.true_or]
  by_cases hrpc : isRpcOf request.path self.config.excludeRpcs = true
  · simp only [hrpc, if_true, Bool.or_true, ite_self]
  rw [Bool.not_eq_true] at hpath hrpc
  simp only [hpath, hrpc, Bool.or_false, Bool.false_eq_true, if_false]
  cases request.trustedSubject with
  | none => rfl
  | some subject => cases isRpcOf request.path self.config.trustedSubjectRpcs <;> rfl

/-- What the subject or the resolver brings into a request. -/
private def brought (config : AuthConfig) (resolver : TokenResolver) (request : Request) : List (String × String) :=
  match config.admitsSubject request with
  | some subject => subject.identityHeaders
  | none => config.resolved resolver request

/-- An admitted request carries what was brought, and else its own headers. -/
private theorem values_admitRequest
    (h : (withTokenResolver Key config resolver).admitRequest decryptJweDir now request = .ok out) (n : HeaderName) :
    (identityValue (brought config resolver request) n = none ∧ out.headers.values n = request.headers.values n) ∨
      ∃ value v, identityValue (brought config resolver request) n = some value ∧ HeaderValue.parse value = some v ∧
        out.headers.values n = [v] := by
  rw [admitRequest_eq] at h
  unfold brought
  split at h
  · next hexempt =>
    have hexempt : config.exempts request.path = true := hexempt
    cases h
    exact .inl (by simp [AuthConfig.admitsSubject, AuthConfig.resolved, hexempt])
  next hexempt =>
  have hexempt : config.exempts request.path = false := Bool.eq_false_iff.2 hexempt
  split at h
  · next subject hsubject =>
    have hsubject : config.admitsSubject request = some subject := hsubject
    rw [hsubject]
    exact values_injected (fun _ _ _ hput => values_inject hput) h n
  next hsubject =>
  have hsubject : config.admitsSubject request = none := hsubject
  unfold admitToken at h
  split at h
  · cases h
  next token hextract =>
  have hextract : extractBearerToken request.headers config.cookieTokenName = .ok token := hextract
  simp only [withTokenResolver, admitResolved] at h
  split at h
  · cases h
  next identity hresolved =>
  have hbrought : config.resolved resolver request = identity := by
    simp [AuthConfig.resolved, hexempt, hsubject, hextract, hresolved, Except.toOption]
  simp only [hsubject, hbrought]
  refine values_injected (fun headers header headers' hput => ?_) h n
  -- a name is removed before it is put in, so the outcome is that of an insertion
  obtain ⟨m, v, hname, hvalue, hvalues⟩ := values_inject hput
  refine ⟨m, v, hname, hvalue, fun k => ?_⟩
  rw [hvalues, HeaderMap.values_remove, hname]
  by_cases hk : k = m
  · simp [hk]
  · simp [hk, Ne.symm hk]

/-- On a forwarded request each header of the resolver is absent or has the value that the resolver returned for
its token exactly if no admitted subject brings one and, of those not returned, none came with the request
under a name that is not stripped. -/
theorem resolver_headers_iff (hpath : (withTokenResolver Key config resolver).preserves request.path = false)
    (hout : (withTokenResolver Key config resolver).authorize decryptJweDir now request = .ok out) :
    (∀ n, resolver.Returns n → out.headers.values n = [] ∨
      ∃ value v, identityValue (config.resolved resolver ((withTokenResolver Key config resolver).strip request)) n =
        some value ∧ HeaderValue.parse value = some v ∧ out.headers.values n = [v]) ↔
    ∀ n, resolver.Returns n →
      (∀ subject ∈ config.admitsSubject request, identityValue subject.identityHeaders n = none) ∧
        (identityValue (config.resolved resolver ((withTokenResolver Key config resolver).strip request)) n = none →
          ((withTokenResolver Key config resolver).strip request).headers.values n = []) := by
  rw [authorize, hpath, if_neg Bool.false_ne_true] at hout
  refine forall_congr' fun n => imp_congr_right fun _ => ?_
  have hvalues := values_admitRequest hout n
  have hsubject : config.admitsSubject ((withTokenResolver Key config resolver).strip request) =
      config.admitsSubject request := rfl
  rw [← hsubject]
  cases hadmits : config.admitsSubject ((withTokenResolver Key config resolver).strip request) with
  | none =>
    simp only [brought, hadmits] at hvalues
    rcases hvalues with ⟨hnone, hsame⟩ | ⟨value, v, hvalue, hparse, hsingle⟩
    · simp [hnone, hsame]
    · simp [hvalue, hparse, hsingle]
  | some subject =>
    have hresolved : config.resolved resolver ((withTokenResolver Key config resolver).strip request) = [] := by
      simp [AuthConfig.resolved, hadmits]
    simp only [brought, hadmits] at hvalues
    rcases hvalues with ⟨hnone, hsame⟩ | ⟨value, v, hvalue, hparse, hsingle⟩
    · simp [hresolved, hnone, hsame]
    · simp [hresolved, hvalue, hsingle]

end

private def sessions : TokenResolver := fun token =>
  if token = "t" then .ok [("x-account-id", "42")] else .error ()

private def account : HeaderName := ⟨"x-account-id", by decide +kernel⟩

private theorem sessions_returns : sessions.Returns account :=
  ⟨"t", _, rfl, ("x-account-id", "42"), List.mem_singleton_self _, by decide +kernel⟩

/-- A request with the bearer token `t`, and with an account of the caller's choice. -/
private def asksAs (path id : String) : Request :=
  ⟨"POST", path, ⟨fun n =>
    if n = authorization then (HeaderValue.parse "Bearer t").toList
    else if n = account then (HeaderValue.parse id).toList else []⟩, none, ""⟩

/-- A forged account gives way to that of the session. -/
theorem resolver_headers_iff_forged :
    ∃ out, (withTokenResolver Unit {} sessions).authorize (fun _ _ => none) 0 (asksAs "/shop.v1.Shop/List" "7") =
      .ok out ∧ out.headers.values account = (HeaderValue.parse "42").toList := by
  have hcarries : ((withTokenResolver Unit {} sessions).authorize (fun _ _ => none) 0
      (asksAs "/shop.v1.Shop/List" "7")).toOption.any (fun out => !(out.headers.values account).isEmpty) = true := by
    decide +kernel
  cases hout : (withTokenResolver Unit {} sessions).authorize (fun _ _ => none) 0
    (asksAs "/shop.v1.Shop/List" "7") with
  | error e => simp [hout, Except.toOption] at hcarries
  | ok out =>
    rw [hout] at hcarries
    have hresolved : identityValue (({} : AuthConfig).resolved sessions
        ((withTokenResolver Unit {} sessions).strip (asksAs "/shop.v1.Shop/List" "7"))) account = some "42" := by
      decide +kernel
    have honly : ∀ n, sessions.Returns n → n = account := by
      rintro n ⟨token, identity, hreturned, header, hheader, hname⟩
      unfold sessions at hreturned
      split at hreturned
      · cases hreturned
        rw [List.mem_singleton.1 hheader] at hname
        exact Option.some.inj (hname.symm.trans (by decide +kernel))
      · cases hreturned
    have hcond : ∀ n, sessions.Returns n →
        (∀ subject ∈ ({} : AuthConfig).admitsSubject (asksAs "/shop.v1.Shop/List" "7"),
          identityValue subject.identityHeaders n = none) ∧ (identityValue (({} : AuthConfig).resolved sessions
            ((withTokenResolver Unit {} sessions).strip (asksAs "/shop.v1.Shop/List" "7"))) n = none →
          ((withTokenResolver Unit {} sessions).strip (asksAs "/shop.v1.Shop/List" "7")).headers.values n = []) := by
      intro n hn
      rw [honly n hn, hresolved]
      exact ⟨nofun, nofun⟩
    rcases (resolver_headers_iff (by decide +kernel) hout).2 hcond account sessions_returns with
      hgone | ⟨value, v, hvalue, hparse, hvalues⟩
    · simp [hgone, Except.toOption] at hcarries
    · rw [hresolved] at hvalue
      obtain rfl := Option.some.inj hvalue
      exact ⟨out, rfl, by rw [hvalues, hparse]; rfl⟩

/-- A forged account reaches an exempt path. -/
theorem exempt_path_keeps_forged :
    ∃ out, (withTokenResolver Unit { excludePaths := ["/health"] } sessions).authorize (fun _ _ => none) 0
        (asksAs "/health" "7") = .ok out ∧
      (withTokenResolver Unit { excludePaths := ["/health"] } sessions).preserves "/health" = false ∧
      sessions.Returns account ∧ out.headers.values account = (HeaderValue.parse "7").toList ∧
      (HeaderValue.parse "7").isSome = true ∧ sessions "t" = .ok [("x-account-id", "42")] := by
  refine ⟨_, rfl, by decide +kernel, sessions_returns, by decide +kernel, by decide +kernel, rfl⟩

end AuthAuthorizer

end Fusions.Rpc
