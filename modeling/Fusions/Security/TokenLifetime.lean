import Fusions.Rpc.AuthMiddleware

/-! How long a token is accepted, and how long the session lasts that is made of it. Moments are in nanoseconds since
the epoch. -/
namespace Fusions

def ofSecs (secs : Int) : Int := secs * 10 ^ 9

/-- `DateTime::from_timestamp_secs`. The calendar has the years from -262143 to 262142. -/
def fromTimestampSecs (secs : Int) : Option Int :=
  if -8334601228800 ≤ secs ∧ secs ≤ 8210266876799 then some (ofSecs secs) else none

def inCalendar (moment : Int) : Bool := ofSecs (-8334601228800) ≤ moment && moment < ofSecs 8210266876800

namespace Rpc.CtxPayload
variable (payload : CtxPayload)

def setI64 (key : String) (value : Int) : CtxPayload :=
  ⟨(key, .int value) :: payload.claims.filter fun claim => claim.1 != key⟩

def getExpiresAt : Option Int := (payload.getI64 "exp").bind fromTimestampSecs

/-- The expiry that the token says. -/
def expClaim : Option Int :=
  match payload.claims.lookup "exp" with
  | some (.int secs) => some secs
  | _ => none

end Rpc.CtxPayload

namespace Security
open Rpc

/-- The seconds of a `SystemTime` are 64 bits wide. -/
def inSystemTime (moment : Int) : Bool := ofSecs (-2 ^ 63) ≤ moment && moment < ofSecs (2 ^ 63)

inductive JwtError where
  | joseError
  | tokenExpired
  | tokenNotYetValid
  | panicked (message : String)
  deriving DecidableEq, Repr

/-- Times are added up to the limit. -/
def addTime (moment duration : Int) : Except JwtError Int :=
  if inSystemTime (moment + duration) then .ok (moment + duration)
  else .error (.panicked "overflow when adding duration to instant")

/-- An integer claim is so many seconds after the epoch. -/
def readTime (payload : CtxPayload) (key : String) : Except JwtError (Option Int) :=
  match payload.claims.lookup key with
  | some (.int secs) => (addTime 0 (ofSecs secs)).map some
  | _ => .ok none

/-- Expired by more than the tolerance. -/
def checkExp (payload : CtxPayload) (now : Int) : Except JwtError Unit := do
  match ← readTime payload "exp" with
  | some expiresAt => if (← addTime expiresAt (ofSecs clockLeeway)) < now then throw .tokenExpired
  | none => return ()

def checkNbf (payload : CtxPayload) (now : Int) : Except JwtError Unit := do
  match ← readTime payload "nbf" with
  | some notBefore => if notBefore > (← addTime now (ofSecs clockLeeway)) then throw .tokenNotYetValid
  | none => return ()

inductive CtxError where
  | unauthorized (message : String)
  | panicked (message : String)
  deriving DecidableEq, Repr

/-- A session. -/
structure Ctx where
  payload : CtxPayload
  reqTime : Int
  reqId : String
  deriving DecidableEq, Repr

/-- `Ctx::try_new`, at a moment that the calendar has. -/
def Ctx.tryNew (payload : CtxPayload) (reqTime : Option Int) (reqId : Option String) (now : Int) :
    Except CtxError Ctx :=
  if !inCalendar now then .error (.panicked "the clock is out of the calendar")
  else
    match payload.getExpiresAt with
    | some st =>
      if st < now then .error (.unauthorized "The token expired")
      else .ok ⟨payload, reqTime.getD now, reqId.getD ""⟩
    | none =>
      let exp := now + ofSecs (60 * 60 * 24 * 60)
      if inCalendar exp then .ok ⟨payload.setI64 "exp" (exp / 10 ^ 9), reqTime.getD now, reqId.getD ""⟩
      else .error (.panicked "`DateTime + Duration` overflowed")

def Ctx.expiresAt (ctx : Ctx) : Option Int := ctx.payload.getExpiresAt

section
variable {Key : Type} (decryptJweDir : Key → String → Option CtxPayload) (key : Key) (token : String) (now : Int)

/-- `SecurityUtils::decrypt_jwt`, with its errors. -/
def SecurityUtils.decryptJwt : Except JwtError CtxPayload := do
  match decryptJweDir key token with
  | none => throw .joseError
  | some payload =>
    checkExp payload now
    checkNbf payload now
    return payload

/-- `extract_ctx` for the token of a request. -/
def extractCtx (traceId : Option String) : Except CtxError Ctx :=
  match SecurityUtils.decryptJwt decryptJweDir key token now with
  | .error (.panicked message) => .error (.panicked message)
  | .error _ => .error (.unauthorized "Failed decode jwt")
  | .ok payload =>
    match Ctx.tryNew payload (some now) traceId now with
    | .error (.unauthorized message) => .error (.unauthorized ("Unauthorized: " ++ message))
    | result => result

end

/-! What an accepted token says of its expiry. -/

theorem ofSecs_injective {a b : Int} (h : ofSecs a = ofSecs b) : a = b := by
  unfold ofSecs at h
  omega

theorem fromTimestampSecs_eq_some {secs moment : Int} : fromTimestampSecs secs = some moment ↔
    ofSecs secs = moment ∧ -8334601228800 ≤ secs ∧ secs ≤ 8210266876799 := by
  unfold fromTimestampSecs
  split
  · next h => simp [h]
  · next h => simp [h]

theorem lookup_of_expClaim {payload : CtxPayload} {secs : Int} (h : payload.expClaim = some secs) :
    payload.claims.lookup "exp" = some (.int secs) := by
  unfold CtxPayload.expClaim at h
  split at h
  · next hlookup => rw [hlookup, Option.some.inj h]
  · cases h

theorem inSystemTime_iff {moment : Int} :
    inSystemTime moment = true ↔ ofSecs (-2 ^ 63) ≤ moment ∧ moment < ofSecs (2 ^ 63) := by
  simp [inSystemTime]

theorem addTime_eq_ok {moment duration late : Int} :
    addTime moment duration = .ok late ↔ moment + duration = late ∧ inSystemTime late = true := by
  unfold addTime
  split
  · next hfits =>
    refine ⟨fun h => ?_, fun h => by rw [h.1]⟩
    obtain rfl := Except.ok.inj h
    exact ⟨rfl, hfits⟩
  · next hfits =>
    refine ⟨nofun, fun h => ?_⟩
    rw [h.1] at hfits
    exact absurd h.2 hfits

theorem readTime_int {payload : CtxPayload} {name : String} {secs : Int}
    (h : payload.claims.lookup name = some (.int secs)) :
    readTime payload name = (addTime 0 (ofSecs secs)).map some := by
  rw [readTime, h]

section
variable {payload : CtxPayload} {now time late : Int}

theorem checkExp_eq (hread : readTime payload "exp" = .ok (some time))
    (hadd : addTime time (ofSecs clockLeeway) = .ok late) :
    checkExp payload now = if late < now then .error .tokenExpired else .ok () := by
  rw [checkExp, hread]
  change (addTime time (ofSecs clockLeeway) >>= fun late => if late < now then throw .tokenExpired else pure ()) = _
  rw [hadd]
  rfl

theorem checkNbf_eq (hread : readTime payload "nbf" = .ok (some time))
    (hadd : addTime now (ofSecs clockLeeway) = .ok late) :
    checkNbf payload now = if time > late then .error .tokenNotYetValid else .ok () := by
  rw [checkNbf, hread]
  change (addTime now (ofSecs clockLeeway) >>= fun late => if time > late then throw .tokenNotYetValid else pure ()) = _
  rw [hadd]
  rfl

end

theorem checkExp_ok {payload : CtxPayload} {now secs : Int} (h : checkExp payload now = .ok ())
    (hexp : payload.expClaim = some secs) : -2 ^ 63 ≤ secs ∧ secs < 2 ^ 63 ∧ now ≤ ofSecs (secs + clockLeeway) := by
  have hread := readTime_int (lookup_of_expClaim hexp)
  cases htime : addTime 0 (ofSecs secs) with
  | error e =>
    rw [checkExp, hread, htime] at h
    cases h
  | ok time =>
    obtain ⟨rfl, hfits⟩ := addTime_eq_ok.1 htime
    rw [htime] at hread
    cases hadd : addTime (0 + ofSecs secs) (ofSecs clockLeeway) with
    | error e =>
      rw [checkExp, hread] at h
      change (addTime (0 + ofSecs secs) (ofSecs clockLeeway) >>= _) = _ at h
      rw [hadd] at h
      cases h
    | ok late =>
      obtain ⟨rfl, -⟩ := addTime_eq_ok.1 hadd
      rw [checkExp_eq hread hadd] at h
      split at h
      · cases h
      · next hle =>
        rw [inSystemTime_iff] at hfits
        unfold ofSecs at hfits hle ⊢
        omega

theorem getExpiresAt_of_expClaim {payload : CtxPayload} {secs : Int} (h : payload.expClaim = some secs)
    (hlow : -2 ^ 63 ≤ secs) (hhigh : secs < 2 ^ 63) : payload.getExpiresAt = fromTimestampSecs secs := by
  rw [CtxPayload.getExpiresAt, CtxPayload.getI64, lookup_of_expClaim h]
  dsimp only
  rw [if_pos ⟨hlow, hhigh⟩]
  rfl

theorem getExpiresAt_of_none {payload : CtxPayload} (h : payload.expClaim = none) : payload.getExpiresAt = none := by
  unfold CtxPayload.expClaim at h
  rw [CtxPayload.getExpiresAt, CtxPayload.getI64]
  cases hlookup : payload.claims.lookup "exp" with
  | none => rfl
  | some value =>
    rw [hlookup] at h
    cases value with
    | int secs => cases h
    | string text => rfl
    | other => rfl

section
variable {Key : Type} {decryptJweDir : Key → String → Option CtxPayload} {key : Key} {token : String} {now : Int}

theorem decryptJwt_ok {payload : CtxPayload} (h : SecurityUtils.decryptJwt decryptJweDir key token now = .ok payload) :
    decryptJweDir key token = some payload ∧ checkExp payload now = .ok () ∧ checkNbf payload now = .ok () := by
  unfold SecurityUtils.decryptJwt at h
  split at h
  · cases h
  · next decrypted hdecrypted =>
    cases hexp : checkExp decrypted now with
    | error e =>
      rw [hexp] at h
      cases h
    | ok _ =>
      cases hnbf : checkNbf decrypted now with
      | error e =>
        rw [hexp, hnbf] at h
        cases h
      | ok _ =>
        rw [hexp, hnbf] at h
        obtain rfl := Except.ok.inj h
        exact ⟨hdecrypted, hexp, hnbf⟩

end

/-! What the authorizer of the RPC layer accepts. -/

/-- The times that add up with the tolerance. -/
def TimesFit (payload : CtxPayload) : Prop :=
  ∀ name ∈ ["exp", "nbf"], ∀ secs, payload.claims.lookup name = some (.int secs) → 0 ≤ secs ∧ secs < 2 ^ 63 - 60

theorem readTime_eq {payload : CtxPayload} (h : TimesFit payload) {name : String} (hname : name ∈ ["exp", "nbf"]) :
    (payload.getTime name = none ∧ readTime payload name = .ok none) ∨
      ∃ secs : Nat, payload.getTime name = some secs ∧ readTime payload name = .ok (some (ofSecs secs)) ∧
        secs < 2 ^ 63 - 60 := by
  unfold CtxPayload.getTime
  cases hlookup : payload.claims.lookup name with
  | none => exact .inl ⟨rfl, by rw [readTime, hlookup]⟩
  | some value =>
    cases value with
    | string text => exact .inl ⟨rfl, by rw [readTime, hlookup]⟩
    | other => exact .inl ⟨rfl, by rw [readTime, hlookup]⟩
    | int secs =>
      obtain ⟨hlow, hhigh⟩ := h name hname secs hlookup
      have hsecs : (secs.toNat : Int) = secs := Int.toNat_of_nonneg hlow
      have hadd : addTime 0 (ofSecs secs) = .ok (ofSecs secs) := by
        rw [addTime_eq_ok, inSystemTime_iff]
        unfold ofSecs
        omega
      refine .inr ⟨secs.toNat, ?_, ?_, by omega⟩
      · dsimp only
        rw [if_pos ⟨hlow, by omega⟩]
      · rw [readTime_int hlookup, hadd, hsecs]
        rfl

theorem checkExp_iff {payload : CtxPayload} (h : TimesFit payload) (now : Nat) : checkExp payload now = .ok () ↔
    ((payload.getTime "exp").all fun expires => now ≤ (expires + clockLeeway) * 10 ^ 9) = true := by
  rcases readTime_eq h (show "exp" ∈ ["exp", "nbf"] by simp) with ⟨hnone, hread⟩ | ⟨secs, hsome, hread, hlt⟩
  · rw [hnone, checkExp, hread]
    exact iff_of_true rfl rfl
  · have hadd : addTime (ofSecs secs) (ofSecs clockLeeway) = .ok (ofSecs secs + ofSecs clockLeeway) := by
      rw [addTime_eq_ok, inSystemTime_iff]
      unfold ofSecs clockLeeway
      omega
    have hlate : ofSecs secs + ofSecs clockLeeway < (now : Int) ↔ ¬ now ≤ (secs + clockLeeway) * 10 ^ 9 := by
      unfold ofSecs
      omega
    rw [hsome, checkExp_eq hread hadd, Option.all_some, decide_eq_true_eq]
    by_cases hnow : now ≤ (secs + clockLeeway) * 10 ^ 9
    · rw [if_neg fun hlt => hlate.1 hlt hnow]
      exact iff_of_true rfl hnow
    · rw [if_pos (hlate.2 hnow)]
      exact iff_of_false nofun hnow

theorem checkNbf_iff {payload : CtxPayload} (h : TimesFit payload) {now : Nat}
    (hnow : inSystemTime (now + ofSecs clockLeeway) = true) : checkNbf payload now = .ok () ↔
      ((payload.getTime "nbf").all fun notBefore => notBefore * 10 ^ 9 ≤ now + clockLeeway * 10 ^ 9) = true := by
  rcases readTime_eq h (show "nbf" ∈ ["exp", "nbf"] by simp) with ⟨hnone, hread⟩ | ⟨secs, hsome, hread, -⟩
  · rw [hnone, checkNbf, hread]
    exact iff_of_true rfl rfl
  · have hadd : addTime now (ofSecs clockLeeway) = .ok (now + ofSecs clockLeeway) := addTime_eq_ok.2 ⟨rfl, hnow⟩
    have hearly : ofSecs secs > now + ofSecs clockLeeway ↔ ¬ secs * 10 ^ 9 ≤ now + clockLeeway * 10 ^ 9 := by
      unfold ofSecs
      omega
    rw [hsome, checkNbf_eq hread hadd, Option.all_some, decide_eq_true_eq]
    by_cases hle : secs * 10 ^ 9 ≤ now + clockLeeway * 10 ^ 9
    · rw [if_neg fun hgt => hearly.1 hgt hle]
      exact iff_of_true rfl hle
    · rw [if_pos (hearly.2 hle)]
      exact iff_of_false nofun hle

/-- Within the limits of `SystemTime` both layers accept the same tokens. -/
theorem decryptJwt_toOption {Key : Type} {decryptJweDir : Key → String → Option CtxPayload} {key : Key}
    {token : String} {now : Nat} (hnow : inSystemTime (now + ofSecs clockLeeway) = true)
    (h : ∀ payload, decryptJweDir key token = some payload → TimesFit payload) :
    (SecurityUtils.decryptJwt decryptJweDir key token now).toOption = Rpc.decryptJwt decryptJweDir now key token := by
  unfold SecurityUtils.decryptJwt Rpc.decryptJwt
  cases hpayload : decryptJweDir key token with
  | none => rfl
  | some payload =>
    have hexp := checkExp_iff (h payload hpayload) now
    have hnbf := checkNbf_iff (h payload hpayload) hnow
    rw [Option.filter_some]
    dsimp only
    cases hcheck : checkExp payload now with
    | error e =>
      rw [hcheck] at hexp
      rw [Bool.eq_false_iff.2 fun hall => nomatch hexp.2 hall]
      rfl
    | ok _ =>
      rw [hcheck] at hexp
      rw [hexp.1 rfl]
      cases hcheck' : checkNbf payload now with
      | error e =>
        rw [hcheck'] at hnbf
        rw [Bool.eq_false_iff.2 fun hall => nomatch hnbf.2 hall]
        rfl
      | ok _ =>
        rw [hcheck'] at hnbf
        rw [hnbf.1 rfl]
        rfl

/-- The expiry is not over and in the calendar; without one, the days to come are in the calendar. -/
def Lasting (payload : CtxPayload) (now : Int) : Prop :=
  match payload.expClaim with
  | some secs => now ≤ ofSecs secs ∧ secs ≤ 8210266876799
  | none => inCalendar (now + ofSecs (60 * 60 * 24 * 60)) = true

theorem inCalendar_iff {moment : Int} :
    inCalendar moment = true ↔ ofSecs (-8334601228800) ≤ moment ∧ moment < ofSecs 8210266876800 := by
  simp [inCalendar]

theorem fromTimestampSecs_of_expiresAt {payload : CtxPayload} {secs : Int}
    (h : payload.getExpiresAt = some (ofSecs secs)) : fromTimestampSecs secs = some (ofSecs secs) := by
  obtain ⟨claimed, -, hclaimed⟩ := Option.bind_eq_some_iff.1 h
  have hsame := ofSecs_injective (fromTimestampSecs_eq_some.1 hclaimed).1
  rwa [hsame] at hclaimed

/-- The session lasts as long as the token says. -/
def Session (payload : CtxPayload) (result : Except CtxError Ctx) : Prop :=
  ∃ ctx, result = .ok ctx ∧ ∀ secs, payload.expClaim = some secs → ctx.expiresAt = some (ofSecs secs)

section
variable {payload : CtxPayload} {now : Int} (reqTime : Option Int) (reqId : Option String)

theorem session_of_none (hnow : 0 ≤ now) (hexp : payload.expClaim = none) :
    Session payload (Ctx.tryNew payload reqTime reqId now) ↔
      inCalendar (now + ofSecs (60 * 60 * 24 * 60)) = true := by
  have hreads (ctx : Ctx) : ∀ secs, payload.expClaim = some secs → ctx.expiresAt = some (ofSecs secs) := by
    rw [hexp]
    nofun
  rw [Ctx.tryNew, getExpiresAt_of_none hexp]
  constructor
  · rintro ⟨ctx, hctx, -⟩
    split at hctx
    · cases hctx
    · dsimp only at hctx
      split at hctx
      · next hlater => exact hlater
      · cases hctx
  · intro hlater
    have hcalendar : inCalendar now = true := by
      rw [inCalendar_iff] at hlater ⊢
      unfold ofSecs at hlater ⊢
      omega
    rw [hcalendar, if_neg (by simp)]
    dsimp only
    rw [if_pos hlater]
    exact ⟨_, rfl, hreads _⟩

theorem session_of_exp (hnow : 0 ≤ now) (haccepts : checkExp payload now = .ok ()) {secs : Int}
    (hexp : payload.expClaim = some secs) : Session payload (Ctx.tryNew payload reqTime reqId now) ↔ now ≤ ofSecs secs ∧ secs ≤ 8210266876799 := by
  obtain ⟨hlow, hhigh, -⟩ := checkExp_ok haccepts hexp
  have hreads := getExpiresAt_of_expClaim hexp hlow hhigh
  constructor
  · rintro ⟨ctx, hctx, hlasts⟩
    have hrange := fromTimestampSecs_of_expiresAt (hlasts secs hexp)
    rw [Ctx.tryNew, hreads, hrange] at hctx
    split at hctx
    · cases hctx
    · dsimp only at hctx
      split at hctx
      · cases hctx
      · next hlive => exact ⟨Int.not_lt.1 hlive, (fromTimestampSecs_eq_some.1 hrange).2.2⟩
  · rintro ⟨hlive, hlimit⟩
    have hrange : fromTimestampSecs secs = some (ofSecs secs) := by
      refine fromTimestampSecs_eq_some.2 ⟨rfl, ?_, hlimit⟩
      unfold ofSecs at hlive
      omega
    have hcalendar : inCalendar now = true := by
      rw [inCalendar_iff]
      unfold ofSecs at hlive ⊢
      omega
    rw [hrange] at hreads
    rw [Ctx.tryNew, hreads, hcalendar, if_neg (by simp)]
    dsimp only
    rw [if_neg (Int.not_lt.2 hlive)]
    refine ⟨_, rfl, fun secs' hsecs' => ?_⟩
    obtain rfl := Option.some.inj (hexp.symm.trans hsecs')
    exact hreads

theorem session_iff_lasting (hnow : 0 ≤ now) (haccepts : checkExp payload now = .ok ()) :
    Session payload (Ctx.tryNew payload reqTime reqId now) ↔ Lasting payload now := by
  unfold Lasting
  cases hexp : payload.expClaim with
  | none => exact session_of_none reqTime reqId hnow hexp
  | some secs => exact session_of_exp reqTime reqId hnow haccepts hexp

end

/-- A token is accepted together with its session. -/
theorem extractCtx_isOk {Key : Type} {decryptJweDir : Key → String → Option CtxPayload} {key : Key} {token : String}
    {now : Int} (traceId : Option String)
    (h : ∀ payload, SecurityUtils.decryptJwt decryptJweDir key token now = .ok payload →
      Session payload (Ctx.tryNew payload (some now) traceId now)) :
    (extractCtx decryptJweDir key token now traceId).isOk =
      (SecurityUtils.decryptJwt decryptJweDir key token now).isOk := by
  unfold extractCtx
  cases haccepts : SecurityUtils.decryptJwt decryptJweDir key token now with
  | error e => cases e <;> rfl
  | ok payload =>
    obtain ⟨ctx, hctx, -⟩ := h payload haccepts
    dsimp only
    rw [hctx]
    rfl

section
variable {Key : Type} (decryptJweDir : Key → String → Option CtxPayload) (key : Key) (token : String) (now : Nat)

/-- Both judges of an expiry agree on a token, and the session has the expiry that the token says. -/
structure Agrees : Prop where
  session : ∀ payload, SecurityUtils.decryptJwt decryptJweDir key token now = .ok payload →
    ∀ reqTime reqId, Session payload (Ctx.tryNew payload reqTime reqId now)
  tokens : ∀ traceId, (extractCtx decryptJweDir key token now traceId).isOk =
    (SecurityUtils.decryptJwt decryptJweDir key token now).isOk

/-- They agree on the tokens that are accepted without the tolerance, as long as the calendar has their expiry. -/
theorem agrees_iff : Agrees decryptJweDir key token now ↔
    ∀ payload, SecurityUtils.decryptJwt decryptJweDir key token now = .ok payload → Lasting payload now := by
  constructor
  · intro w payload haccepts
    obtain ⟨-, hexp, -⟩ := decryptJwt_ok haccepts
    exact (session_iff_lasting none none (Int.natCast_nonneg now) hexp).1 (w.session payload haccepts none none)
  · intro h
    have hsession : ∀ payload, SecurityUtils.decryptJwt decryptJweDir key token now = .ok payload →
        ∀ reqTime reqId, Session payload (Ctx.tryNew payload reqTime reqId now) := by
      intro payload haccepts reqTime reqId
      obtain ⟨-, hexp, -⟩ := decryptJwt_ok haccepts
      exact (session_iff_lasting reqTime reqId (Int.natCast_nonneg now) hexp).2 (h payload haccepts)
    exact ⟨hsession, fun traceId => extractCtx_isOk traceId fun payload haccepts =>
      hsession payload haccepts (some now) traceId⟩

end

/-- A token that expired half a minute ago is accepted, and gives no session. -/
theorem late_token_disagrees : ¬ ∀ (decryptJweDir : Unit → String → Option CtxPayload) (token : String) (now : Nat),
    Agrees decryptJweDir () token now := by
  intro h
  have w := h (fun _ _ => some ⟨[("exp", .int 100)]⟩) "" (130 * 10 ^ 9)
  obtain ⟨ctx, hctx, -⟩ := w.session ⟨[("exp", .int 100)]⟩ rfl none none
  have hexpired : Ctx.tryNew ⟨[("exp", .int 100)]⟩ none none (130 * 10 ^ 9 : Nat) =
      .error (.unauthorized "The token expired") := rfl
  rw [hexpired] at hctx
  cases hctx

end Security

end Fusions
