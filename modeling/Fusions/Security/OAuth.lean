import Mathlib.Algebra.Group.Nat.Defs
import Fusions.Library.Runs
import Fusions.Library.Calls

/-! OAuth tokens: the in-memory store, and the calls that hand out access tokens and renew them. Times are in
nanoseconds since the epoch. -/
namespace Fusions.Security
open Fusions.Library

structure OAuthTokenResponse where
  accessToken : String
  tokenType : String
  expiresIn : Option UInt64
  refreshToken : Option String
  scope : Option String
  deriving DecidableEq, Repr

inductive OAuthError where
  | tokenExchangeError (message : String)
  | stateMismatch
  deriving DecidableEq, Repr

def nanosPerSec : Nat := 1000000000

def nowUnixSecs (now : Nat) : Nat := now / nanosPerSec

/-- `u64::saturating_add`. -/
def saturatingAdd (a b : Nat) : Nat := min (a + b) (2 ^ 64 - 1)

theorem saturatingAdd_mono {a b c d : Nat} (h : a ≤ b) (h' : c ≤ d) : saturatingAdd a c ≤ saturatingAdd b d := by
  unfold saturatingAdd
  omega

namespace OAuthTokenResponse
variable (token : OAuthTokenResponse)

/-- `expires_at`, which counts from the time at which it is asked. -/
def expiresAt (now : Nat) : Option Nat :=
  token.expiresIn.map fun duration => saturatingAdd (nowUnixSecs now) duration.toNat

/-- `is_expired_or_expiring_soon`, with its two readings of the clock. -/
def isExpiredOrExpiringSoon (first second : Nat) : Bool :=
  match token.expiresAt first with
  | some expiresAt => decide (expiresAt ≤ saturatingAdd (nowUnixSecs second) 30)
  | none => false

/-- A lifetime of half a minute is always about to end, since it is counted from the check. -/
theorem isExpired_of_short {duration : UInt64} {first second : Nat} (h : duration ∈ token.expiresIn)
    (hshort : duration.toNat ≤ 30) (hle : first ≤ second) : token.isExpiredOrExpiringSoon first second = true := by
  have hsecs : nowUnixSecs first ≤ nowUnixSecs second := Nat.div_le_div_right hle
  have hexpires : token.expiresIn = some duration := h
  rw [isExpiredOrExpiringSoon, expiresAt, hexpires]
  exact decide_eq_true (saturatingAdd_mono hsecs hshort)

end OAuthTokenResponse

/-- A token in the store, with the instant of its `store_token`. -/
structure StoredToken where
  user : String
  token : OAuthTokenResponse
  stored : Nat
  deriving DecidableEq, Repr

/-- `MemoryTokenStore`, with one entry at most for a user. -/
abbrev MemoryTokenStore := List StoredToken

namespace MemoryTokenStore
variable (tokens : MemoryTokenStore)

def removeToken (user : String) : MemoryTokenStore := tokens.filter (·.user != user)

def storeToken (user : String) (token : OAuthTokenResponse) (now : Nat) : MemoryTokenStore :=
  ⟨user, token, now⟩ :: removeToken tokens user

def getToken (user : String) : Option StoredToken := tokens.find? (·.user == user)

/-- `cleanup_expired`, with the readings of the clock for each entry. -/
def cleanupExpired (readings : StoredToken → Nat × Nat) : MemoryTokenStore × Nat :=
  let kept := tokens.filter fun entry =>
    !entry.token.isExpiredOrExpiringSoon (readings entry).1 (readings entry).2
  (kept, tokens.length - kept.length)

end MemoryTokenStore

def constantTimeEq (a b : List UInt8) : Bool :=
  a.length == b.length && (List.zipWith (· ^^^ ·) a b).foldl (· ||| ·) 0 == 0

/-- `exchange_code`, with what the provider answers to the code. -/
def exchangeCode (tokens : MemoryTokenStore) (receivedState expectedState user : String)
    (answer : Except String OAuthTokenResponse) (now : Nat) :
    Except OAuthError (OAuthTokenResponse × MemoryTokenStore) :=
  if constantTimeEq receivedState.toUTF8.toList expectedState.toUTF8.toList then
    match answer with
    | .ok token => .ok (token, MemoryTokenStore.storeToken tokens user token now)
    | .error message => .error (.tokenExchangeError message)
  else .error .stateMismatch

/-- What a call hands out: the access token of this token, which was stored then, at this time. -/
structure Handed where
  token : OAuthTokenResponse
  stored : Nat
  time : Nat
  deriving DecidableEq, Repr

/-- Where a `get_valid_access_token` stands. -/
inductive GetPhase where
  | begun
  | read (entry : StoredToken)
  | refreshing (refreshToken : String)
  | renewed (token : OAuthTokenResponse)
  | removing (message : String)
  | returned (result : Except OAuthError Handed)

structure OAuthClient where
  clock : Nat
  tokens : MemoryTokenStore
  calls : List (String × GetPhase)

inductive OAuthStep where
  | passes (clock : Nat)
  | exchanges (receivedState expectedState user : String) (answer : Except String OAuthTokenResponse)
  | begins (user : String)
  | reads (place : Nat)
  /-- The token that was read is checked, with two readings of the clock. -/
  | checks (place first second : Nat)
  /-- The provider answers to a refresh token. -/
  | refreshes (place : Nat) (answer : Except String OAuthTokenResponse)
  | stores (place : Nat)
  | removes (place : Nat)
  /-- `cleanup_expired`, from now to this time. -/
  | cleans (readings : StoredToken → Nat × Nat) (clock : Nat)

namespace OAuthClient
variable (s : OAuthClient)

/-- A call goes on to a phase. -/
def goes (place : Nat) (user : String) (phase : GetPhase) : OAuthClient :=
  { s with calls := s.calls.set place (user, phase) }

def next : OAuthStep → Option OAuthClient
  | .passes clock => if s.clock ≤ clock then some { s with clock := clock } else none
  | .exchanges receivedState expectedState user answer =>
    match exchangeCode s.tokens receivedState expectedState user answer s.clock with
    | .ok (_, tokens) => some { s with tokens := tokens }
    | .error _ => some s
  | .begins user => some { s with calls := s.calls ++ [(user, .begun)] }
  | .reads place =>
    match s.calls[place]? with
    | some (user, .begun) =>
      match MemoryTokenStore.getToken s.tokens user with
      | some entry => some (s.goes place user (.read entry))
      | none => some (s.goes place user (.returned (.error (.tokenExchangeError
          "No valid token found in storage. Please exchange authorization code first."))))
    | _ => none
  | .checks place first second =>
    match s.calls[place]? with
    | some (user, .read entry) =>
      if s.clock ≤ first ∧ first ≤ second then
        let s := { s with clock := second }
        if entry.token.isExpiredOrExpiringSoon first second then
          match entry.token.refreshToken with
          | some refreshToken => some (s.goes place user (.refreshing refreshToken))
          | none => some (s.goes place user (.removing "Token expired and no refresh token available"))
        else some (s.goes place user (.returned (.ok ⟨entry.token, entry.stored, second⟩)))
      else none
    | _ => none
  | .refreshes place answer =>
    match s.calls[place]? with
    | some (user, .refreshing _) =>
      match answer with
      | .ok token => some (s.goes place user (.renewed token))
      | .error _ => some (s.goes place user (.removing "Token refresh failed and token was removed"))
    | _ => none
  | .stores place =>
    match s.calls[place]? with
    | some (user, .renewed token) =>
      let s := s.goes place user (.returned (.ok ⟨token, s.clock, s.clock⟩))
      some { s with tokens := MemoryTokenStore.storeToken s.tokens user token s.clock }
    | _ => none
  | .removes place =>
    match s.calls[place]? with
    | some (user, .removing message) =>
      let s := s.goes place user (.returned (.error (.tokenExchangeError message)))
      some { s with tokens := MemoryTokenStore.removeToken s.tokens user }
    | _ => none
  | .cleans readings clock =>
    if s.clock ≤ clock ∧ ∀ entry ∈ s.tokens, s.clock ≤ (readings entry).1 ∧
        (readings entry).1 ≤ (readings entry).2 ∧ (readings entry).2 ≤ clock then
      some { s with clock := clock, tokens := (MemoryTokenStore.cleanupExpired s.tokens readings).1 }
    else none

/-- An empty store at any time. -/
def system : System OAuthClient OAuthStep where
  init s := s.tokens = [] ∧ s.calls = []
  step s i s' := s.next i = some s'

/-- A token with a lifetime of over 30 seconds, stored then, has not run out. -/
def Lives (entry : StoredToken) (now : Nat) : Prop :=
  ∀ duration ∈ entry.token.expiresIn, 30 < duration.toNat → now ≤ entry.stored + duration.toNat * nanosPerSec

/-- Tokens with a lifetime of over 30 seconds are asked for before they run out, and so is the store cleaned up. -/
def Timely : OAuthStep → Prop
  | .checks place _ second => ∀ user entry, s.calls[place]? = some (user, .read entry) → Lives entry second
  | .cleans _ _ => ∀ entry ∈ s.tokens, Lives entry (s.clock + 1)
  | _ => True

variable {s s' : OAuthClient} {step : OAuthStep}

/-- The access tokens that calls have returned had not run out. -/
def HandsOutLive (s : OAuthClient) : Prop :=
  ∀ (place : Nat) (user : String) (handed : Handed), s.calls[place]? = some (user, .returned (.ok handed)) →
    ∀ duration ∈ handed.token.expiresIn, handed.time ≤ handed.stored + duration.toNat * nanosPerSec

private theorem HandsOutLive.goes {place : Nat} {user : String} {phase phase' : GetPhase} (h : s.HandsOutLive)
    (hat : s.calls[place]? = some (user, phase)) (hcalls : s'.calls = s.calls.set place (user, phase'))
    (hlive : ∀ handed, phase' = .returned (.ok handed) → ∀ duration ∈ handed.token.expiresIn,
      handed.time ≤ handed.stored + duration.toNat * nanosPerSec) : s'.HandsOutLive := by
  intro i user' handed hat'
  rw [hcalls] at hat'
  rcases eq_or_of_moved hat hat' with ⟨-, hsame⟩ | ⟨-, hold⟩
  · exact hlive handed (Prod.mk.inj hsame).2.symm
  · exact h i user' handed hold

private theorem HandsOutLive.next (h : s.HandsOutLive) (hnext : s.next step = some s') (htimely : s.Timely step) :
    s'.HandsOutLive := by
  unfold OAuthClient.next at hnext
  cases step with
  | passes clock | cleans readings clock =>
    dsimp only at hnext
    split at hnext
    · cases hnext
      exact h
    · cases hnext
  | exchanges receivedState expectedState user answer =>
    dsimp only at hnext
    split at hnext <;> cases hnext <;> exact h
  | begins user =>
    cases hnext
    intro i user' handed hat
    rcases eq_or_of_begun hat with ⟨-, hsame⟩ | hold
    · cases hsame
    · exact h i user' handed hold
  | reads place =>
    dsimp only at hnext
    split at hnext
    · next hat => split at hnext <;> cases hnext <;> exact h.goes hat rfl nofun
    · cases hnext
  | checks place first second =>
    dsimp only at hnext
    split at hnext
    · next user entry hat =>
      split at hnext
      · next hclock =>
        split at hnext
        · split at hnext <;> cases hnext <;> exact h.goes hat rfl nofun
        · next hvalid =>
          cases hnext
          refine h.goes hat rfl ?_
          rintro _ ⟨⟩ duration hduration
          refine htimely user entry hat duration hduration (Nat.lt_of_not_le fun hshort => hvalid ?_)
          exact entry.token.isExpired_of_short hduration hshort hclock.2
      · cases hnext
    · cases hnext
  | refreshes place answer =>
    dsimp only at hnext
    split at hnext
    · next hat => split at hnext <;> cases hnext <;> exact h.goes hat rfl nofun
    · cases hnext
  | stores place =>
    dsimp only at hnext
    split at hnext
    · next hat =>
      cases hnext
      refine h.goes hat rfl ?_
      rintro _ ⟨⟩ duration -
      exact Nat.le_add_right _ _
    · cases hnext
  | removes place =>
    dsimp only at hnext
    split at hnext
    · next hat =>
      cases hnext
      exact h.goes hat rfl nofun
    · cases hnext

/-- In every run in which tokens with a lifetime of over 30 seconds are asked for, and cleaned up, before they run out,
none is handed out later than it has run out, and after a cleanup none is left that had run out when it began. -/
theorem hands_out_unexpired (h : system.ReachableIf Timely s) : s.HandsOutLive ∧
    ∀ readings clock s', s.Timely (.cleans readings clock) → s.next (.cleans readings clock) = some s' →
      ∀ entry ∈ s'.tokens, ∀ duration ∈ entry.token.expiresIn,
        s.clock < entry.stored + duration.toNat * nanosPerSec := by
  refine ⟨?_, fun readings clock s' htimely hnext entry hentry duration hduration => ?_⟩
  · refine h.invariant ?_ fun s step s' _ hlive hstep htimely => hlive.next hstep htimely
    rintro s ⟨-, hcalls⟩ place user handed hat
    simp [hcalls] at hat
  · simp only [next, Option.ite_none_right_eq_some] at hnext
    obtain ⟨⟨-, hreadings⟩, hs'⟩ := hnext
    cases hs'
    obtain ⟨hmem, hvalid⟩ := List.mem_filter.1 hentry
    refine htimely entry hmem duration hduration (Nat.lt_of_not_le fun hshort => ?_)
    rw [entry.token.isExpired_of_short hduration hshort (hreadings entry hmem).2.1] at hvalid
    cases hvalid

/-- A token for an hour, and one with which it can be renewed. -/
private def hourToken : OAuthTokenResponse := ⟨"a1", "bearer", some 3600, some "r1", none⟩

private theorem hourToken_valid (now : Nat) (h : now < nanosPerSec * 2 ^ 32) :
    hourToken.isExpiredOrExpiringSoon now now = false := by
  have hnow : nowUnixSecs now < 2 ^ 32 := Nat.div_lt_of_lt_mul h
  have hlifetime : saturatingAdd (nowUnixSecs now) 30 < saturatingAdd (nowUnixSecs now) 3600 := by
    unfold saturatingAdd
    omega
  simpa [OAuthTokenResponse.isExpiredOrExpiringSoon, OAuthTokenResponse.expiresAt, hourToken] using hlifetime

/-- The hour's token is stored at once, asked for at a time, and handed out. -/
private theorem reachable_handed {ok : OAuthClient → OAuthStep → Prop} (now : Nat) (h : now < nanosPerSec * 2 ^ 32)
    (hok : ∀ s i, (∀ place first second, i ≠ .checks place first second) →
      (∀ readings clock, i ≠ .cleans readings clock) → ok s i)
    (hchecks : ok ⟨0, [⟨"ada", hourToken, 0⟩], [("ada", .read ⟨"ada", hourToken, 0⟩)]⟩ (.checks 0 now now)) :
    system.ReachableIf ok ⟨now, [⟨"ada", hourToken, 0⟩], [("ada", .returned (.ok ⟨hourToken, 0, now⟩))]⟩ := by
  have hstates : constantTimeEq "st".toUTF8.toList "st".toUTF8.toList = true := by decide +kernel
  have hstored : system.ReachableIf ok ⟨0, [⟨"ada", hourToken, 0⟩], []⟩ := by
    refine .step (s := ⟨0, [], []⟩) (i := .exchanges "st" "st" "ada" (.ok hourToken)) (.init ⟨rfl, rfl⟩) ?_
      (hok _ _ nofun nofun)
    simp only [system, next, exchangeCode, hstates, if_true]
    rfl
  have hbegun : system.ReachableIf ok ⟨0, [⟨"ada", hourToken, 0⟩], [("ada", .begun)]⟩ :=
    hstored.step (i := .begins "ada") rfl (hok _ _ nofun nofun)
  have hread : system.ReachableIf ok ⟨0, [⟨"ada", hourToken, 0⟩], [("ada", .read ⟨"ada", hourToken, 0⟩)]⟩ :=
    hbegun.step (i := .reads 0) rfl (hok _ _ nofun nofun)
  refine hread.step (i := .checks 0 now now) ?_ hchecks
  simp [system, next, goes, MemoryTokenStore.getToken, hourToken_valid now h]

/-- A token of an hour is asked for after half an hour. -/
theorem hands_out_unexpired_early :
    ∃ s, system.ReachableIf Timely s ∧ s.clock = 1800 * nanosPerSec ∧ s.HandsOutLive ∧
      s.calls = [("ada", .returned (.ok ⟨hourToken, 0, 1800 * nanosPerSec⟩))] := by
  have hreach : system.ReachableIf Timely _ := reachable_handed (1800 * nanosPerSec) (by decide) ?_ ?_
  · exact ⟨_, hreach, rfl, (hands_out_unexpired hreach).1, rfl⟩
  · rintro s (_ | _ | _ | _ | _ | _ | _ | _ | _) hchecks hcleans <;>
      first | trivial | exact absurd rfl (hchecks _ _ _) | exact absurd rfl (hcleans _ _)
  · rintro _ _ ⟨⟩ _ ⟨⟩ -
    decide

/-- A token of an hour is handed out after two. -/
theorem expired_token_handed_out :
    ∃ s, system.Reachable s ∧ s.calls = [("ada", .returned (.ok ⟨hourToken, 0, 7200 * nanosPerSec⟩))] ∧
      hourToken.expiresIn = some 3600 ∧ 0 + 3600 * nanosPerSec < 7200 * nanosPerSec :=
  ⟨_, reachable_handed (7200 * nanosPerSec) (by decide) (fun _ _ _ _ => trivial) trivial, rfl, rfl, by decide⟩

end OAuthClient

end Fusions.Security
