import Fusions.Rpc.AuthMiddleware

/-! Identity headers that a client sends have no effect. Two requests that differ in nothing else have one
outcome. -/
namespace Fusions.Rpc

/-- The requests differ at most in headers that the claim mappings name. -/
structure AuthConfig.Agree (config : AuthConfig) (request request' : Request) : Prop where
  rest : request' = { request with headers := request'.headers }
  headers : ∀ n, (∀ mapping ∈ config.claimMappings, HeaderName.parse mapping.header ≠ some n) →
    request'.headers.values n = request.headers.values n

namespace AuthAuthorizer
variable {Key : Type} {self : AuthAuthorizer Key} {request request' : Request}

/-- Every header that a mapping names is gone, and no other. -/
theorem values_strip (n : HeaderName) : (self.strip request).headers.values n =
    if ∃ mapping ∈ self.config.claimMappings, HeaderName.parse mapping.header = some n then []
    else request.headers.values n := by
  unfold strip
  dsimp only
  generalize request.headers = headers
  induction self.config.claimMappings generalizing headers with
  | nil => simp
  | cons mapping mappings ih =>
    rw [List.foldl_cons, ih, HeaderMap.values_remove]
    by_cases hhead : HeaderName.parse mapping.header = some n
    · simp [hhead]
    · simp [hhead]

theorem strip_eq_of_agree (h : self.config.Agree request request') : self.strip request' = self.strip request := by
  have hheaders : (self.strip request').headers = (self.strip request).headers := by
    ext1
    funext n
    rw [values_strip, values_strip]
    split
    · rfl
    · next hnone => exact h.headers n fun mapping hmapping hname => hnone ⟨mapping, hmapping, hname⟩
  have hrest : self.strip request' = { self.strip request with headers := (self.strip request').headers } := by
    rw [strip, h.rest]
    rfl
  rw [hrest, hheaders]

/-- Off the paths that preserve identity headers, whatever the client puts into a header that a claim mapping
names changes nothing, whichever names these are and whichever way the request takes. -/
theorem authorize_eq_of_agree (decryptJweDir : Key → String → Option CtxPayload) (now : Nat)
    (hagree : self.config.Agree request request') (hpath : self.preserves request.path = false) :
    self.authorize decryptJweDir now request' = self.authorize decryptJweDir now request := by
  have hpath' : self.preserves request'.path = false := by
    rw [hagree.rest]
    exact hpath
  rw [authorize, authorize, hpath, hpath', if_neg Bool.false_ne_true, if_neg Bool.false_ne_true,
    strip_eq_of_agree hagree]

private def byTenant : AuthAuthorizer Unit :=
  ⟨some (), { claimMappings := [⟨"X-Tenant-Id", .string "tenant_id"⟩] }, none⟩

private def decodeTenant (_ : Unit) (token : String) : Option CtxPayload :=
  if token = "t" then some ⟨[("tenant_id", .string "3")]⟩ else none

private def tenant : HeaderName := ⟨"x-tenant-id", by decide +kernel⟩

/-- A request with a bearer token, and with tenants of the caller's choice. -/
private def listsShop (tenants : List String) : Request :=
  ⟨"POST", "/shop.v1.Shop/List", ⟨fun n =>
    if n = authorization then (HeaderValue.parse "Bearer t").toList
    else if n = tenant then tenants.filterMap HeaderValue.parse else []⟩, none, ""⟩

/-- Forged tenants give way to the tenant of the token. -/
theorem authorize_eq_of_agree_forged :
    byTenant.authorize decodeTenant 0 (listsShop ["7", "8"]) = byTenant.authorize decodeTenant 0 (listsShop []) ∧
      (byTenant.authorize decodeTenant 0 (listsShop ["7", "8"])).toOption.map (fun r => r.headers.values tenant) =
        some (HeaderValue.parse "3").toList := by
  refine ⟨authorize_eq_of_agree _ _ ⟨rfl, fun n hn => ?_⟩ (by decide +kernel), by decide +kernel⟩
  have htenant : n ≠ tenant := by
    intro heq
    refine hn _ (List.mem_singleton_self _) ?_
    rw [heq]
    decide +kernel
  simp [listsShop, htenant]

end AuthAuthorizer

end Fusions.Rpc
