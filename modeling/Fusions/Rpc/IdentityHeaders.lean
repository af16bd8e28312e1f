import Fusions.Rpc.HeaderText
import Fusions.Rpc.Resolver

/-! Whether the services behind can read the identity headers that are put into a request. -/
namespace Fusions.Rpc

/-- The headers that a payload has a value for, in the order of the mappings. -/
def AuthConfig.claimHeaders (config : AuthConfig) (payload : CtxPayload) : List (String × String) :=
  config.claimMappings.filterMap fun mapping => (mapping.source.read payload).map (mapping.header, ·)

/-- The first header that cannot be put in. -/
inductive HeaderFault where
  | value
  | name
  deriving DecidableEq, Repr

def firstFault : List (String × String) → Option HeaderFault
  | [] => none
  | header :: identity =>
    if (HeaderValue.parse header.2).isNone then some .value
    else if (HeaderName.parse header.1).isNone then some .name
    else firstFault identity

/-- A value that no header can have, with names before it that headers can have. -/
def RefusedFirst (identity : List (String × String)) : Prop :=
  ∃ pre header post, identity = pre ++ header :: post ∧ (∀ header ∈ pre, (HeaderName.parse header.1).isSome = true) ∧
    HeaderValue.parse header.2 = none

/-- Refused for a value, or visible throughout and with one value for each header. -/
def Deliverable (identity : List (String × String)) : Prop :=
  RefusedFirst identity ∨ ((∀ header ∈ identity, Visible header.2) ∧
    ((∀ header ∈ identity, (HeaderName.parse header.1).isSome = true) → ∀ header ∈ identity, ∀ header' ∈ identity,
      HeaderName.parse header.1 = HeaderName.parse header'.1 → header.2 = header'.2))

theorem firstFault_value {identity : List (String × String)} :
    firstFault identity = some .value ↔ RefusedFirst identity := by
  induction identity with
  | nil =>
    refine iff_of_false nofun ?_
    rintro ⟨pre, header, post, heq, -⟩
    simp at heq
  | cons header identity ih =>
    rw [firstFault]
    by_cases hvalue : HeaderValue.parse header.2 = none
    · simp only [hvalue, Option.isNone_none, if_true, true_iff]
      exact ⟨[], header, identity, rfl, nofun, hvalue⟩
    · rw [if_neg (by simpa using hvalue)]
      by_cases hname : HeaderName.parse header.1 = none
      · rw [if_pos (by simp [hname])]
        refine iff_of_false nofun ?_
        rintro ⟨pre, bad, post, heq, hpre, hbad⟩
        cases pre with
        | nil =>
          obtain ⟨rfl, -⟩ := List.cons.inj heq
          exact hvalue hbad
        | cons first pre =>
          obtain ⟨rfl, -⟩ := List.cons.inj heq
          have hfirst := hpre _ List.mem_cons_self
          rw [hname] at hfirst
          cases hfirst
      · rw [if_neg (by simpa using hname), ih]
        constructor
        · rintro ⟨pre, bad, post, rfl, hpre, hbad⟩
          refine ⟨header :: pre, bad, post, rfl, ?_, hbad⟩
          rw [List.forall_mem_cons]
          exact ⟨Option.isSome_iff_ne_none.2 hname, hpre⟩
        · rintro ⟨pre, bad, post, heq, hpre, hbad⟩
          cases pre with
          | nil =>
            obtain ⟨rfl, -⟩ := List.cons.inj heq
            exact absurd hbad hvalue
          | cons first pre =>
            obtain ⟨rfl, rfl⟩ := List.cons.inj heq
            exact ⟨pre, bad, post, rfl, (List.forall_mem_cons.1 hpre).2, hbad⟩

theorem firstFault_none {identity : List (String × String)} (h : firstFault identity = none) :
    ∀ header ∈ identity, (HeaderName.parse header.1).isSome = true := by
  induction identity with
  | nil => simp
  | cons header identity ih =>
    rw [firstFault] at h
    split at h
    · cases h
    · split at h
      · cases h
      · next hname =>
        rw [List.forall_mem_cons]
        exact ⟨by simpa [Option.isSome_iff_ne_none] using hname, ih h⟩

theorem firstFault_name {identity : List (String × String)} (h : firstFault identity = some .name) :
    ∃ header ∈ identity, HeaderName.parse header.1 = none := by
  induction identity with
  | nil => cases h
  | cons header identity ih =>
    rw [firstFault] at h
    split at h
    · cases h
    · split at h
      · next hname => exact ⟨header, List.mem_cons_self, by simpa using hname⟩
      · obtain ⟨bad, hbad, hname⟩ := ih h
        exact ⟨bad, List.mem_cons_of_mem _ hbad, hname⟩

theorem identityValue_eq_some {identity : List (String × String)} {n : HeaderName} {value : String}
    (h : identityValue identity n = some value) :
    ∃ header ∈ identity, HeaderName.parse header.1 = some n ∧ header.2 = value := by
  obtain ⟨header, hfind, rfl⟩ := Option.map_eq_some_iff.1 h
  have hname := List.find?_some hfind
  exact ⟨header, List.mem_reverse.1 (List.mem_of_find?_eq_some hfind), by simpa using hname, rfl⟩

theorem identityValue_eq_none {identity : List (String × String)} {n : HeaderName}
    (h : identityValue identity n = none) : ∀ header ∈ identity, HeaderName.parse header.1 ≠ some n := by
  intro header hheader hname
  have hnone := List.find?_eq_none.1 (Option.map_eq_none_iff.1 h) header (List.mem_reverse.2 hheader)
  exact hnone (by simpa using hname)

namespace AuthAuthorizer

/-- A step of one of the loops that put headers in. -/
structure Injects {Key : Type} (authorizer : AuthAuthorizer Key)
    (step : HeaderMap → String × String → Except Refusal HeaderMap) : Prop where
  values : ∀ headers header headers', step headers header = .ok headers' →
    ∃ n v, HeaderName.parse header.1 = some n ∧ HeaderValue.parse header.2 = some v ∧
      ∀ m, headers'.values m = if m = n then [v] else headers.values m
  result : ∀ headers header, (step headers header).map (fun _ => ()) = match HeaderValue.parse header.2 with
    | none => .error (authorizer.unauthorized authorizer.config.errorMessage)
    | some _ => match HeaderName.parse header.1 with
      | none => .error (.panicked "static str is invalid name")
      | some _ => .ok ()

variable {Key : Type} (self : AuthAuthorizer Key)

theorem injects_inject : self.Injects fun headers header => self.inject headers header.1 header.2 := by
  refine ⟨fun _ _ _ => values_inject, fun headers header => ?_⟩
  unfold inject HeaderMap.insert
  cases HeaderValue.parse header.2 with
  | none => rfl
  | some v => cases HeaderName.parse header.1 <;> rfl

/-- A name is removed before it is put in, so that the outcome is that of an insertion. -/
theorem injects_remove :
    self.Injects fun headers header => self.inject (headers.remove header.1) header.1 header.2 := by
  refine ⟨fun headers header headers' hput => ?_, fun headers header => ?_⟩
  · obtain ⟨n, v, hname, hvalue, hvalues⟩ := values_inject hput
    refine ⟨n, v, hname, hvalue, fun m => ?_⟩
    rw [hvalues, HeaderMap.values_remove, hname]
    by_cases hm : m = n
    · simp [hm]
    · simp [hm, Ne.symm hm]
  · exact (injects_inject self).result (headers.remove header.1) header

/-- What the first fault makes of a request. -/
def faultResult : Option HeaderFault → Except Refusal Unit
  | none => .ok ()
  | some .value => .error (self.unauthorized self.config.errorMessage)
  | some .name => .error (.panicked "static str is invalid name")

variable {self} {step : HeaderMap → String × String → Except Refusal HeaderMap} {identity : List (String × String)}

theorem Injects.foldlM (hstep : self.Injects step) (headers : HeaderMap) :
    (identity.foldlM step headers).map (fun _ => ()) = self.faultResult (firstFault identity) := by
  induction identity generalizing headers with
  | nil => rfl
  | cons header identity ih =>
    have hresult := hstep.result headers header
    rw [List.foldlM_cons, firstFault]
    cases hrun : step headers header with
    | error e =>
      rw [hrun] at hresult
      cases hvalue : HeaderValue.parse header.2 with
      | none =>
        rw [hvalue] at hresult
        exact hresult
      | some v =>
        cases hname : HeaderName.parse header.1 with
        | none =>
          rw [hvalue, hname] at hresult
          exact hresult
        | some n =>
          rw [hvalue, hname] at hresult
          cases hresult
    | ok headers' =>
      rw [hrun] at hresult
      obtain ⟨n, v, hname, hvalue, -⟩ := hstep.values headers header headers' hrun
      rw [hvalue, hname]
      exact ih headers'

/-- A request is handed over with these headers as they are, or refused. -/
structure HandsOver (unauthorized : Refusal) (identity : List (String × String)) (result : Except Refusal Request) :
    Prop where
  reads : ∀ out, result = .ok out → ∀ header ∈ identity, ∃ n v, HeaderName.parse header.1 = some n ∧
    out.headers.values n = [v] ∧ v.toStr = some header.2
  refuses : (∃ header ∈ identity, ¬ ReadsBack header.2) → result = .error unauthorized

section
variable {unauthorized : Refusal} {result : Except Refusal Request}

theorem HandsOver.visible (w : HandsOver unauthorized identity result) (hresult : result ≠ .error unauthorized) :
    ∀ header ∈ identity, Visible header.2 := fun header hheader =>
  Decidable.byContradiction fun hhidden => hresult (w.refuses ⟨header, hheader, fun h => hhidden (readsBack_iff.1 h)⟩)

/-- Visible values refuse nothing. -/
theorem handsOver_of_visible (hvisible : ∀ header ∈ identity, Visible header.2)
    (hreads : ∀ out, result = .ok out → ∀ header ∈ identity, ∃ n v, HeaderName.parse header.1 = some n ∧
      out.headers.values n = [v] ∧ v.toStr = some header.2) : HandsOver unauthorized identity result := by
  refine ⟨hreads, ?_⟩
  rintro ⟨header, hheader, hhidden⟩
  exact absurd (readsBack_iff.2 (hvisible header hheader)) hhidden

end

theorem not_refusedFirst (h : firstFault identity ≠ some .value) : ¬ RefusedFirst identity :=
  fun hfirst => h (firstFault_value.2 hfirst)

/-- Where a name is none, the request is not handed over at all. -/
theorem handsOver_panicked {unauthorized : Refusal} (hfault : firstFault identity = some .name)
    (hpanic : .panicked "static str is invalid name" ≠ unauthorized) :
    HandsOver unauthorized identity (.error (.panicked "static str is invalid name")) ↔ Deliverable identity := by
  obtain ⟨bad, hbad, hname⟩ := firstFault_name hfault
  constructor
  · intro w
    refine .inr ⟨w.visible fun heq => hpanic (Except.error.inj heq), fun hall => ?_⟩
    have hsome := hall bad hbad
    rw [hname] at hsome
    cases hsome
  · rintro (hfirst | ⟨hvisible, -⟩)
    · exact absurd hfirst (not_refusedFirst (by rw [hfault]; nofun))
    · exact handsOver_of_visible hvisible nofun

/-- Where nothing is at fault, the headers that come last by their names are handed over. -/
theorem handsOver_ok {unauthorized : Refusal} (hstep : self.Injects step) {request : Request} {headers : HeaderMap}
    (hrun : identity.foldlM step request.headers = .ok headers) (hfault : firstFault identity = none) :
    HandsOver unauthorized identity (.ok { request with headers }) ↔ Deliverable identity := by
  have hnames := firstFault_none hfault
  constructor
  · intro w
    refine .inr ⟨w.visible nofun, fun _ header hheader header' hheader' hsame => ?_⟩
    obtain ⟨n, v, hn, hv, htext⟩ := w.reads _ rfl header hheader
    obtain ⟨n', v', hn', hv', htext'⟩ := w.reads _ rfl header' hheader'
    obtain rfl := Option.some.inj (hn.symm.trans (hsame.trans hn'))
    obtain rfl := (List.cons.inj (hv.symm.trans hv')).1
    exact Option.some.inj (htext.symm.trans htext')
  · rintro (hfirst | ⟨hvisible, hsame⟩)
    · exact absurd hfirst (not_refusedFirst (by rw [hfault]; nofun))
    · refine handsOver_of_visible hvisible fun out hout header hheader => ?_
      obtain rfl := Except.ok.inj hout
      obtain ⟨n, hn⟩ := Option.isSome_iff_exists.1 (hnames header hheader)
      rcases values_foldlM hstep.values hrun n with ⟨hnone, -⟩ | ⟨value, v, hvalue, hparse, hlist⟩
      · exact absurd hn (identityValue_eq_none hnone header hheader)
      · obtain ⟨header', hheader', hn', rfl⟩ := identityValue_eq_some hvalue
        have htext := hsame hnames header hheader header' hheader' (hn.trans hn'.symm)
        refine ⟨n, v, hn, hlist, ?_⟩
        rw [htext]
        exact toStr_parse hparse (hvisible header' hheader')

theorem handsOver_iff (hstep : self.Injects step) (request : Request) :
    HandsOver (self.unauthorized self.config.errorMessage) identity
        ((identity.foldlM step request.headers).map fun headers => { request with headers }) ↔
      Deliverable identity := by
  have hfold : (identity.foldlM step request.headers).map (fun _ => ()) = self.faultResult (firstFault identity) :=
    hstep.foldlM request.headers
  cases hrun : identity.foldlM step request.headers with
  | error e =>
    rw [hrun] at hfold
    cases hfault : firstFault identity with
    | none =>
      rw [hfault] at hfold
      cases hfold
    | some fault =>
      rw [hfault] at hfold
      cases fault with
      | value =>
        obtain rfl := Except.error.inj hfold
        exact iff_of_true ⟨nofun, fun _ => rfl⟩ (.inl (firstFault_value.1 hfault))
      | name =>
        obtain rfl := Except.error.inj hfold
        exact handsOver_panicked hfault nofun
  | ok headers =>
    rw [hrun] at hfold
    cases hfault : firstFault identity with
    | none => exact handsOver_ok hstep hrun hfault
    | some fault =>
      rw [hfault] at hfold
      cases fault <;> cases hfold

section
variable (self) (decryptJweDir : Key → String → Option CtxPayload) (now : Nat) (request : Request)

/-- The request as it is checked. -/
def entering : Request := if self.preserves request.path then request else self.strip request

/-- The identity headers of a request that is let in for who calls. -/
def authenticated : Option (List (String × String)) :=
  if self.config.exempts request.path then none
  else match self.config.admitsSubject request with
    | some subject => some subject.identityHeaders
    | none =>
      match extractBearerToken request.headers self.config.cookieTokenName with
      | .error _ => none
      | .ok token =>
        match self.resolver with
        | some resolver => (resolver token).toOption
        | none => (self.security.bind fun key => decryptJwt decryptJweDir now key token).map self.config.claimHeaders

variable {self decryptJweDir now request}

theorem bind_pure_eq_map {α β : Type} (result : Except Refusal α) (f : α → β) :
    (result >>= fun a => pure (f a)) = result.map f := by
  cases result <;> rfl

theorem foldlM_claims (mappings : List ClaimMapping) (payload : CtxPayload) (headers : HeaderMap) :
    (mappings.foldlM (fun headers mapping =>
      match mapping.source.read payload with
      | some value => self.inject headers mapping.header value
      | none => .ok headers) headers) =
    ((mappings.filterMap fun mapping => (mapping.source.read payload).map (mapping.header, ·)).foldlM
      (fun headers header => self.inject headers header.1 header.2) headers) := by
  induction mappings generalizing headers with
  | nil => rfl
  | cons mapping mappings ih =>
    rw [List.foldlM_cons, List.filterMap_cons]
    cases mapping.source.read payload with
    | none => exact ih headers
    | some value =>
      rw [Option.map_some, List.foldlM_cons]
      dsimp only
      cases self.inject headers mapping.header value with
      | error e => rfl
      | ok headers' => exact ih headers'

theorem admitClaims_eq (payload : CtxPayload) : self.admitClaims request payload =
    ((self.config.claimHeaders payload).foldlM (fun headers header => self.inject headers header.1 header.2)
      request.headers).map fun headers => { request with headers } := by
  refine (bind_pure_eq_map _ _).trans (congrArg (Except.map fun headers => { request with headers }) ?_)
  exact foldlM_claims self.config.claimMappings payload request.headers

/-- All three ways put the headers of the identity in one after another. -/
theorem admitRequest_of_authenticated
    (h : self.authenticated decryptJweDir now request = some identity) :
    ∃ step, self.Injects step ∧ self.admitRequest decryptJweDir now request =
      (identity.foldlM step request.headers).map fun headers => { request with headers } := by
  unfold authenticated at h
  rw [admitRequest_eq]
  by_cases hexempt : self.config.exempts request.path = true
  · rw [if_pos hexempt] at h
    cases h
  rw [if_neg hexempt] at h ⊢
  cases hsubject : self.config.admitsSubject request with
  | some subject =>
    rw [hsubject] at h
    obtain rfl := Option.some.inj h
    exact ⟨_, injects_inject self, bind_pure_eq_map _ _⟩
  | none =>
    rw [hsubject] at h
    dsimp only at h ⊢
    unfold admitToken
    cases htoken : extractBearerToken request.headers self.config.cookieTokenName with
    | error e =>
      rw [htoken] at h
      cases h
    | ok token =>
      rw [htoken] at h
      dsimp only at h ⊢
      cases hresolver : self.resolver with
      | some resolver =>
        rw [hresolver] at h
        dsimp only at h ⊢
        unfold admitResolved
        cases hresolved : resolver token with
        | error e =>
          rw [hresolved] at h
          cases h
        | ok headers =>
          rw [hresolved] at h
          obtain rfl := Option.some.inj h
          exact ⟨_, injects_remove self, bind_pure_eq_map _ _⟩
      | none =>
        rw [hresolver] at h
        obtain ⟨payload, hpayload, rfl⟩ := Option.map_eq_some_iff.1 h
        rw [hpayload]
        exact ⟨_, injects_inject self, admitClaims_eq payload⟩

variable (self decryptJweDir now request)

/-- Every request that is let in for who calls is handed over with the headers of that identity, or refused. -/
def HandsOverIdentity : Prop :=
  ∀ identity, self.authenticated decryptJweDir now (self.entering request) = some identity →
    HandsOver (self.unauthorized self.config.errorMessage) identity (self.authorize decryptJweDir now request)

variable {self decryptJweDir now request}

theorem authorize_handsOver_iff (h : self.authenticated decryptJweDir now (self.entering request) = some identity) :
    HandsOver (self.unauthorized self.config.errorMessage) identity (self.authorize decryptJweDir now request) ↔
      Deliverable identity := by
  obtain ⟨step, hstep, hadmit⟩ := admitRequest_of_authenticated h
  have hauthorize : self.authorize decryptJweDir now request =
    self.admitRequest decryptJweDir now (self.entering request) := rfl
  rw [hauthorize, hadmit]
  exact handsOver_iff hstep (self.entering request)

/-- The services behind read what was brought exactly when it is visible text without a conflict, or refused. -/
theorem handsOverIdentity_iff : self.HandsOverIdentity decryptJweDir now request ↔
    ∀ identity, self.authenticated decryptJweDir now (self.entering request) = some identity →
      Deliverable identity :=
  forall_congr' fun _ => imp_congr_right authorize_handsOver_iff

end

/-- A tenant of a session that is not ASCII is put in, and cannot be read. -/
theorem foreign_tenant_unread : ¬ ∀ (self : AuthAuthorizer Unit) (decryptJweDir : Unit → String → Option CtxPayload)
    (now : Nat) (request : Request), self.HandsOverIdentity decryptJweDir now request := by
  intro h
  let resolver : TokenResolver := fun _ => .ok [("x-tenant-id", "é")]
  let request : Request := ⟨"POST", "/shop.v1.Shop/List", ⟨fun n =>
    if n = authorization then (HeaderValue.parse "Bearer t").toList else []⟩, none, ""⟩
  have hidentity : (withTokenResolver Unit {} resolver).authenticated (fun _ _ => none) 0
      ((withTokenResolver Unit {} resolver).entering request) = some [("x-tenant-id", "é")] := by
    decide +kernel
  have hdeliverable := (authorize_handsOver_iff hidentity).1
    (h (withTokenResolver Unit {} resolver) (fun _ _ => none) 0 request _ hidentity)
  rcases hdeliverable with hrefused | ⟨hvisible, -⟩
  · rw [← firstFault_value] at hrefused
    exact absurd hrefused (by decide +kernel)
  · exact absurd (hvisible _ (List.mem_singleton_self _)) (by decide +kernel)

end AuthAuthorizer

end Fusions.Rpc
