import Mathlib.Logic.Function.Basic
import Fusions.Security.OAuth

/-! Signed-in users: the calls that renew their tokens, and a provider that takes each refresh token once. -/
namespace Fusions.Security
open Fusions.Library

def GetPhase.isReturned : GetPhase → Bool
  | .returned _ => true
  | _ => false

/-- The client, and for each user the refresh token that the provider accepts. -/
structure SignIn where
  client : OAuthClient
  current : String → Option String

namespace SignIn
variable (s : SignIn)

/-- What a step leaves at the provider: a token that it issues takes the place of the one before, and of refresh tokens
it accepts the last one issued and no other. -/
def Grants (current : String → Option String) : OAuthStep → Prop
  | .exchanges receivedState expectedState user (.ok token) =>
    current = if constantTimeEq receivedState.toUTF8.toList expectedState.toUTF8.toList then
      Function.update s.current user token.refreshToken else s.current
  | .refreshes place (.ok token) => ∀ user refreshToken,
    s.client.calls[place]? = some (user, .refreshing refreshToken) →
      s.current user = some refreshToken ∧ current = Function.update s.current user token.refreshToken
  | .refreshes place (.error _) => ∀ user refreshToken,
    s.client.calls[place]? = some (user, .refreshing refreshToken) →
      s.current user ≠ some refreshToken ∧ current = s.current
  | _ => current = s.current

/-- Nobody is signed in at first. -/
def system : System SignIn OAuthStep where
  init s := OAuthClient.system.init s.client ∧ ∀ user, s.current user = none
  step s step s' := s.client.next step = some s'.client ∧ s.Grants s'.current step

/-- No call of the user is under way. -/
def Quiet (user : String) : Prop :=
  ∀ (place : Nat) (phase : GetPhase), s.client.calls[place]? = some (user, phase) → phase.isReturned = true

/-- The calls of a user, and their sign-ins, come one after the other, and no token is cleaned up that could be
renewed. -/
def OneByOne (s : SignIn) : OAuthStep → Prop
  | .begins user => s.Quiet user
  | .exchanges _ _ user _ => s.Quiet user
  | .cleans readings _ => ∀ entry ∈ s.client.tokens, entry.token.refreshToken.isSome = true →
    entry.token.isExpiredOrExpiringSoon (readings entry).1 (readings entry).2 = false
  | _ => True

/-- What a call of a user has in hand, against the store and the provider. -/
def Stands (user : String) : GetPhase → Prop
  | .read entry => entry.user = user ∧ (∀ other ∈ s.client.tokens, other.user = user → other = entry) ∧
    (entry.token.refreshToken.isSome = true → entry ∈ s.client.tokens)
  | .refreshing refreshToken =>
    ∃ entry ∈ s.client.tokens, entry.user = user ∧ entry.token.refreshToken = some refreshToken
  | .renewed token => token.refreshToken = s.current user
  | .removing _ => s.current user = none
  | .begun | .returned _ => True

/-- The provider's token of a user is in the store, or is about to be. -/
def Holds (user refreshToken : String) : Prop :=
  (∃ entry ∈ s.client.tokens, entry.user = user ∧ entry.token.refreshToken = some refreshToken) ∨
    ∃ (place : Nat) (token : OAuthTokenResponse), s.client.calls[place]? = some (user, .renewed token) ∧
      token.refreshToken = some refreshToken

def OnePerUser (tokens : MemoryTokenStore) : Prop :=
  ∀ entry ∈ tokens, ∀ other ∈ tokens, entry.user = other.user → entry = other

structure Kept (s : SignIn) : Prop where
  unique : OnePerUser s.client.tokens
  current : ∀ user refreshToken, s.current user = some refreshToken → s.Holds user refreshToken
  calls : ∀ (place : Nat) (user : String) (phase : GetPhase), s.client.calls[place]? = some (user, phase) →
    s.Stands user phase
  single : ∀ (place place' : Nat) (user : String) (phase phase' : GetPhase),
    s.client.calls[place]? = some (user, phase) → s.client.calls[place']? = some (user, phase') →
      phase.isReturned = false → phase'.isReturned = false → place = place'

variable {s} {s' : SignIn} {step : OAuthStep} {user : String}

/-- Nothing has changed for a user. -/
def Same (s s' : SignIn) (user : String) : Prop :=
  s'.current user = s.current user ∧ ∀ entry, entry.user = user → (entry ∈ s'.client.tokens ↔ entry ∈ s.client.tokens)

private theorem Stands.of_same {phase : GetPhase} (h : s.Stands user phase) (hsame : s.Same s' user) :
    s'.Stands user phase := by
  obtain ⟨hcurrent, htokens⟩ := hsame
  cases phase with
  | read entry =>
    obtain ⟨huser, hothers, hkept⟩ := h
    exact ⟨huser, fun other hother hother' => hothers other ((htokens other hother').1 hother) hother',
      fun hsome => (htokens entry huser).2 (hkept hsome)⟩
  | refreshing refreshToken =>
    obtain ⟨entry, hentry, huser, hrefresh⟩ := h
    exact ⟨entry, (htokens entry huser).2 hentry, huser, hrefresh⟩
  | renewed token => exact Eq.trans h hcurrent.symm
  | removing message => exact hcurrent.trans h
  | begun | returned result => trivial

/-- A call of a user moves, and nothing changes for the others. -/
private theorem Kept.moved {place : Nat} {phase phase' : GetPhase} (h : s.Kept)
    (hat : s.client.calls[place]? = some (user, phase)) (hunderway : phase.isReturned = false)
    (hcalls : s'.client.calls = s.client.calls.set place (user, phase'))
    (hothers : ∀ other, other ≠ user → s.Same s' other)
    (hunique : OnePerUser s'.client.tokens)
    (hholds : ∀ refreshToken, s'.current user = some refreshToken → s'.Holds user refreshToken)
    (hstands : s'.Stands user phase') : s'.Kept := by
  have hat' : ∀ {i : Nat} {other : String} {q : GetPhase}, s'.client.calls[i]? = some (other, q) →
      (i = place ∧ other = user ∧ q = phase') ∨ (i ≠ place ∧ s.client.calls[i]? = some (other, q)) := by
    intro i other q hi
    rw [hcalls] at hi
    rcases eq_or_of_moved hat hi with ⟨rfl, hsame⟩ | hold
    · exact .inl ⟨rfl, (Prod.mk.inj hsame).1, (Prod.mk.inj hsame).2⟩
    · exact .inr hold
  have hmoved : ∀ {i : Nat} {other : String} {q : GetPhase}, i ≠ place → s.client.calls[i]? = some (other, q) →
      s'.client.calls[i]? = some (other, q) := fun hi hold => by
    rw [hcalls, moved_of_ne hat _ hi, hold]
  refine ⟨hunique, fun other refreshToken hcurrent => ?_, fun i other q hi => ?_, fun i j other q q' hi hj hq hq' => ?_⟩
  · by_cases hother : other = user
    · subst hother
      exact hholds refreshToken hcurrent
    · obtain ⟨hsame, htokens⟩ := hothers other hother
      rcases h.current other refreshToken (hsame.symm.trans hcurrent) with ⟨entry, hentry, huser, hrefresh⟩ | hrenewed
      · exact .inl ⟨entry, (htokens entry huser).2 hentry, huser, hrefresh⟩
      · obtain ⟨i, token, hi, hrefresh⟩ := hrenewed
        refine .inr ⟨i, token, hmoved ?_ hi, hrefresh⟩
        rintro rfl
        exact hother (Prod.mk.inj (Option.some.inj (hi.symm.trans hat))).1
  · rcases hat' hi with ⟨-, rfl, rfl⟩ | ⟨hne, hold⟩
    · exact hstands
    · by_cases hother : other = user
      · subst hother
        cases hq : q.isReturned with
        | true =>
          cases q with
          | returned => trivial
          | begun | read | refreshing | renewed | removing => cases hq
        | false => exact absurd (h.single i place other q phase hold hat hq hunderway) hne
      · exact (h.calls i other q hold).of_same (hothers other hother)
  · rcases hat' hi with ⟨rfl, rfl, rfl⟩ | ⟨hne, hold⟩ <;> rcases hat' hj with ⟨rfl, heq, rfl⟩ | ⟨hne', hold'⟩
    · rfl
    · exact (h.single j i other q' phase hold' hat hq' hunderway).symm
    · subst heq
      exact h.single i j other q phase hold hat hq hunderway
    · exact h.single i j other q q' hold hold' hq hq'

/-- A call of a user moves, and neither the store nor the provider changes. -/
private theorem Kept.goes {place : Nat} {phase phase' : GetPhase} (h : s.Kept)
    (hat : s.client.calls[place]? = some (user, phase)) (hunderway : phase.isReturned = false)
    (hphase : ∀ token, phase ≠ .renewed token)
    (hcalls : s'.client.calls = s.client.calls.set place (user, phase')) (htokens : s'.client.tokens = s.client.tokens)
    (hcurrent : s'.current = s.current) (hstands : s'.Stands user phase') : s'.Kept := by
  refine h.moved hat hunderway hcalls (fun other _ => ⟨by rw [hcurrent], fun entry _ => by rw [htokens]⟩)
    (by rw [htokens]; exact h.unique) (fun refreshToken hsome => ?_) hstands
  rw [hcurrent] at hsome
  rcases h.current user refreshToken hsome with ⟨entry, hentry, hrest⟩ | ⟨i, token, hi, hrefresh⟩
  · exact .inl ⟨entry, htokens ▸ hentry, hrest⟩
  · refine .inr ⟨i, token, ?_, hrefresh⟩
    rw [hcalls, moved_of_ne hat _ ?_, hi]
    rintro rfl
    exact hphase token (Prod.mk.inj (Option.some.inj (hat.symm.trans hi))).2

/-- The store or the provider changes for a user who has no call under way. -/
private theorem Kept.quiet (h : s.Kept) (hquiet : s.Quiet user) (hcalls : s'.client.calls = s.client.calls)
    (hothers : ∀ other, other ≠ user → s.Same s' other)
    (hunique : OnePerUser s'.client.tokens)
    (hholds : ∀ refreshToken, s'.current user = some refreshToken → s'.Holds user refreshToken) : s'.Kept := by
  refine ⟨hunique, fun other refreshToken hcurrent => ?_, fun place other phase hat => ?_,
    by rw [hcalls]; exact h.single⟩
  · by_cases hother : other = user
    · subst hother
      exact hholds refreshToken hcurrent
    · obtain ⟨hsame, htokens⟩ := hothers other hother
      refine (h.current other refreshToken (hsame.symm.trans hcurrent)).imp ?_ fun hrenewed => ?_
      · rintro ⟨entry, hentry, huser, hrefresh⟩
        exact ⟨entry, (htokens entry huser).2 hentry, huser, hrefresh⟩
      · rw [hcalls]
        exact hrenewed
  · rw [hcalls] at hat
    by_cases hother : other = user
    · subst hother
      have hreturned := hquiet place phase hat
      cases phase with
      | returned => trivial
      | begun | read | refreshing | renewed | removing => cases hreturned
    · exact (h.calls place other phase hat).of_same (hothers other hother)

private theorem Kept.of_eq (h : s.Kept) (hcalls : s'.client.calls = s.client.calls)
    (htokens : s'.client.tokens = s.client.tokens) (hcurrent : s'.current = s.current) : s'.Kept := by
  have hsame : ∀ other, s.Same s' other := fun other => ⟨by rw [hcurrent], fun entry _ => by rw [htokens]⟩
  refine ⟨by rw [htokens]; exact h.unique, fun other refreshToken hsome => ?_, fun place other phase hat => ?_,
    by rw [hcalls]; exact h.single⟩
  · rw [hcurrent] at hsome
    rw [Holds, htokens, hcalls]
    exact h.current other refreshToken hsome
  · rw [hcalls] at hat
    exact (h.calls place other phase hat).of_same (hsame other)

private theorem mem_removeToken {tokens : MemoryTokenStore} {entry : StoredToken} :
    entry ∈ tokens.removeToken user ↔ entry ∈ tokens ∧ entry.user ≠ user := by
  rw [MemoryTokenStore.removeToken, List.mem_filter, bne_iff_ne]

private theorem mem_storeToken {tokens : MemoryTokenStore} {entry : StoredToken} {token : OAuthTokenResponse}
    {now : Nat} :
    entry ∈ tokens.storeToken user token now ↔ entry = ⟨user, token, now⟩ ∨ entry ∈ tokens ∧ entry.user ≠ user := by
  rw [MemoryTokenStore.storeToken, List.mem_cons, mem_removeToken]

private theorem mem_storeToken_of_ne {tokens : MemoryTokenStore} {entry : StoredToken} {token : OAuthTokenResponse}
    {now : Nat} (h : entry.user ≠ user) : entry ∈ tokens.storeToken user token now ↔ entry ∈ tokens := by
  rw [mem_storeToken, and_iff_left h, or_iff_right]
  rintro rfl
  exact h rfl

private theorem OnePerUser.storeToken {tokens : MemoryTokenStore} (token : OAuthTokenResponse) (now : Nat)
    (h : OnePerUser tokens) : OnePerUser (tokens.storeToken user token now) := by
  intro entry hentry other hother huser
  rcases mem_storeToken.1 hentry with rfl | ⟨hentry, hne⟩ <;> rcases mem_storeToken.1 hother with rfl | ⟨hother, hne'⟩
  · rfl
  · exact absurd huser.symm hne'
  · exact absurd huser hne
  · exact h entry hentry other hother huser

/-- A call that has something in hand other than a renewed token has the user's token still to look for in the store. -/
private theorem Kept.stored (h : s.Kept) {place : Nat} {phase : GetPhase}
    (hat : s.client.calls[place]? = some (user, phase)) (hunderway : phase.isReturned = false)
    (hphase : ∀ token, phase ≠ .renewed token) {refreshToken : String} (hcurrent : s.current user = some refreshToken) :
    ∃ entry ∈ s.client.tokens, entry.user = user ∧ entry.token.refreshToken = some refreshToken := by
  refine (h.current user refreshToken hcurrent).resolve_right ?_
  rintro ⟨i, token, hi, -⟩
  obtain rfl := h.single i place user _ phase hi hat rfl hunderway
  exact hphase token (Prod.mk.inj (Option.some.inj (hat.symm.trans hi))).2

private theorem Kept.begun (h : s.Kept) (hquiet : s.Quiet user)
    (hcalls : s'.client.calls = s.client.calls ++ [(user, .begun)]) (htokens : s'.client.tokens = s.client.tokens)
    (hcurrent : s'.current = s.current) : s'.Kept := by
  have hsame : ∀ other, s.Same s' other := fun other => ⟨by rw [hcurrent], fun entry _ => by rw [htokens]⟩
  refine ⟨by rw [htokens]; exact h.unique, fun other refreshToken hsome => ?_, fun i other phase hi => ?_,
    fun i j other phase phase' hi hj hphase hphase' => ?_⟩
  · rw [hcurrent] at hsome
    rcases h.current other refreshToken hsome with ⟨entry, hentry, hrest⟩ | ⟨i, token, hi, hrefresh⟩
    · exact .inl ⟨entry, htokens ▸ hentry, hrest⟩
    · exact .inr ⟨i, token, by rw [hcalls]; exact begun_of_getElem? hi _, hrefresh⟩
  · rw [hcalls] at hi
    rcases eq_or_of_begun hi with ⟨-, hnew⟩ | hold
    · obtain ⟨rfl, rfl⟩ := Prod.mk.inj hnew
      trivial
    · exact (h.calls i other phase hold).of_same (hsame other)
  · rw [hcalls] at hi hj
    rcases eq_or_of_begun hi with ⟨hplace, hnew⟩ | hold <;> rcases eq_or_of_begun hj with ⟨hplace', hnew'⟩ | hold'
    · exact hplace.trans hplace'.symm
    · obtain ⟨rfl, rfl⟩ := Prod.mk.inj hnew
      rw [hquiet j phase' hold'] at hphase'
      cases hphase'
    · obtain ⟨rfl, rfl⟩ := Prod.mk.inj hnew'
      rw [hquiet i phase hold] at hphase
      cases hphase
    · exact h.single i j other phase phase' hold hold' hphase hphase'

/-- Tokens leave the store, of which none could be renewed. -/
private theorem Kept.cleaned (h : s.Kept) (hcalls : s'.client.calls = s.client.calls)
    (hcurrent : s'.current = s.current) (hold : ∀ entry ∈ s'.client.tokens, entry ∈ s.client.tokens)
    (hkept : ∀ entry ∈ s.client.tokens, entry.token.refreshToken.isSome = true → entry ∈ s'.client.tokens) :
    s'.Kept := by
  refine ⟨fun entry hentry other hother => h.unique entry (hold entry hentry) other (hold other hother),
    fun user refreshToken hsome => ?_, fun place user phase hat => ?_, by rw [hcalls]; exact h.single⟩
  · rw [hcurrent] at hsome
    refine (h.current user refreshToken hsome).imp ?_ fun hrenewed => ?_
    · rintro ⟨entry, hentry, huser, hrefresh⟩
      exact ⟨entry, hkept entry hentry (by rw [hrefresh]; rfl), huser, hrefresh⟩
    · rw [hcalls]
      exact hrenewed
  · rw [hcalls] at hat
    have hstands := h.calls place user phase hat
    cases phase with
    | read entry =>
      obtain ⟨huser, hothers, hmem⟩ := hstands
      exact ⟨huser, fun other hother => hothers other (hold other hother),
        fun hsome => hkept entry (hmem hsome) hsome⟩
    | refreshing refreshToken =>
      obtain ⟨entry, hentry, huser, hrefresh⟩ := hstands
      exact ⟨entry, hkept entry hentry (by rw [hrefresh]; rfl), huser, hrefresh⟩
    | renewed token => exact Eq.trans hstands (by rw [hcurrent])
    | removing message => exact Eq.trans (by rw [hcurrent]) hstands
    | begun | returned result => trivial

private theorem Kept.next (h : s.Kept) (hone : s.OneByOne step) (hnext : s.client.next step = some s'.client)
    (hgrants : s.Grants s'.current step) : s'.Kept := by
  unfold OAuthClient.next at hnext
  cases step with
  | passes clock =>
    obtain ⟨-, hclient⟩ := Option.ite_none_right_eq_some.1 hnext
    have hclient := Option.some.inj hclient
    exact h.of_eq (by rw [← hclient]) (by rw [← hclient]) hgrants
  | begins user =>
    have hclient := Option.some.inj hnext
    exact h.begun hone (by rw [← hclient]) (by rw [← hclient]) hgrants
  | exchanges receivedState expectedState user answer =>
    dsimp only [exchangeCode] at hnext
    cases answer with
    | error message =>
      have hclient : s.client = s'.client := by
        by_cases hstates : constantTimeEq receivedState.toUTF8.toList expectedState.toUTF8.toList = true
        · rw [if_pos hstates] at hnext
          exact Option.some.inj hnext
        · rw [if_neg hstates] at hnext
          exact Option.some.inj hnext
      exact h.of_eq (by rw [hclient]) (by rw [hclient]) hgrants
    | ok token =>
      dsimp only [Grants] at hgrants
      split at hgrants
      · next hstates =>
        rw [if_pos hstates] at hnext
        have hclient := Option.some.inj hnext
        have htokens : s'.client.tokens = s.client.tokens.storeToken user token s.client.clock := by rw [← hclient]
        refine h.quiet hone (by rw [← hclient]) (fun other hother => ?_) ?_ fun refreshToken hsome => ?_
        · refine ⟨by rw [hgrants, Function.update_of_ne hother], fun entry huser => ?_⟩
          rw [htokens]
          exact mem_storeToken_of_ne (huser ▸ hother)
        · rw [htokens]
          exact h.unique.storeToken token _
        · rw [hgrants, Function.update_self] at hsome
          exact .inl ⟨_, htokens ▸ mem_storeToken.2 (.inl rfl), rfl, hsome⟩
      · next hstates =>
        rw [if_neg hstates] at hnext
        have hclient := Option.some.inj hnext
        exact h.of_eq (by rw [← hclient]) (by rw [← hclient]) hgrants
  | reads place =>
    dsimp only at hnext
    split at hnext
    · next user hat =>
      split at hnext
      · next entry hentry =>
        have hclient := Option.some.inj hnext
        have htokens : s'.client.tokens = s.client.tokens := by rw [← hclient]; rfl
        refine h.goes hat rfl (by simp) (by rw [← hclient]; rfl) htokens hgrants ?_
        have hmem : entry ∈ s.client.tokens := List.mem_of_find?_eq_some hentry
        have huser : entry.user = user := by simpa using List.find?_some hentry
        refine ⟨huser, fun other hother hsame => ?_, fun _ => htokens ▸ hmem⟩
        rw [htokens] at hother
        exact h.unique other hother entry hmem (hsame.trans huser.symm)
      · have hclient := Option.some.inj hnext
        refine h.goes hat rfl (by simp) (by rw [← hclient]; rfl) (by rw [← hclient]; rfl) hgrants ?_
        trivial
    · cases hnext
  | checks place first second =>
    dsimp only at hnext
    split at hnext
    · next user entry hat =>
      obtain ⟨-, hnext⟩ := Option.ite_none_right_eq_some.1 hnext
      obtain ⟨huser, hothers, hkept⟩ := h.calls place user _ hat
      split at hnext
      · split at hnext
        · next refreshToken hrefresh =>
          have hclient := Option.some.inj hnext
          have htokens : s'.client.tokens = s.client.tokens := by rw [← hclient]; rfl
          refine h.goes hat rfl (by simp) (by rw [← hclient]; rfl) htokens hgrants ?_
          exact ⟨entry, htokens ▸ hkept (by rw [hrefresh]; rfl), huser, hrefresh⟩
        · next hrefresh =>
          have hclient := Option.some.inj hnext
          refine h.goes hat rfl (by simp) (by rw [← hclient]; rfl) (by rw [← hclient]; rfl) hgrants ?_
          -- a token that the provider still accepted would be another entry of the user
          refine Option.eq_none_iff_forall_ne_some.2 fun refreshToken hsome => ?_
          have hcurrent : s'.current = s.current := hgrants
          rw [hcurrent] at hsome
          obtain ⟨other, hother, huser', hrefresh'⟩ := h.stored hat rfl (by simp) hsome
          rw [hothers other hother huser', hrefresh] at hrefresh'
          cases hrefresh'
      · have hclient := Option.some.inj hnext
        refine h.goes hat rfl (by simp) (by rw [← hclient]; rfl) (by rw [← hclient]; rfl) hgrants ?_
        trivial
    · cases hnext
  | refreshes place answer =>
    dsimp only at hnext
    split at hnext
    · next user refreshToken hat =>
      split at hnext
      · next token =>
        have hclient := Option.some.inj hnext
        have hcalls : s'.client.calls = s.client.calls.set place (user, .renewed token) := by rw [← hclient]; rfl
        have htokens : s'.client.tokens = s.client.tokens := by rw [← hclient]; rfl
        obtain ⟨-, hcurrent⟩ := hgrants user refreshToken hat
        refine h.moved hat rfl hcalls (fun other hother => ?_) (by rw [htokens]; exact h.unique)
          (fun issued hsome => ?_) ?_
        · exact ⟨by rw [hcurrent, Function.update_of_ne hother], fun entry _ => by rw [htokens]⟩
        · rw [hcurrent, Function.update_self] at hsome
          exact .inr ⟨place, token, by rw [hcalls, moved_self hat], hsome⟩
        · rw [Stands, hcurrent, Function.update_self]
      · have hclient := Option.some.inj hnext
        obtain ⟨hrefused, hcurrent⟩ := hgrants user refreshToken hat
        refine h.goes hat rfl (by simp) (by rw [← hclient]; rfl) (by rw [← hclient]; rfl) hcurrent ?_
        -- the provider would accept what is in the store, and that is the token it has refused
        refine Option.eq_none_iff_forall_ne_some.2 fun accepted hsome => ?_
        rw [hcurrent] at hsome
        obtain ⟨entry, hentry, huser, hrefresh⟩ := h.calls place user _ hat
        obtain ⟨other, hother, huser', hrefresh'⟩ := h.stored hat rfl (by simp) hsome
        obtain rfl := h.unique entry hentry other hother (huser.trans huser'.symm)
        exact hrefused (hsome.trans (hrefresh'.symm.trans hrefresh))
    · cases hnext
  | stores place =>
    dsimp only at hnext
    split at hnext
    · next user token hat =>
      have hclient := Option.some.inj hnext
      have htokens : s'.client.tokens = s.client.tokens.storeToken user token s.client.clock := by rw [← hclient]; rfl
      have hcurrent : s'.current = s.current := hgrants
      have hstands : token.refreshToken = s.current user := h.calls place user _ hat
      refine h.moved hat rfl (by rw [← hclient]; rfl) (fun other hother => ?_) ?_ (fun refreshToken hsome => ?_) ?_
      · refine ⟨by rw [hcurrent], fun entry huser => ?_⟩
        rw [htokens]
        exact mem_storeToken_of_ne (huser ▸ hother)
      · rw [htokens]
        exact h.unique.storeToken token _
      · rw [hcurrent, ← hstands] at hsome
        exact .inl ⟨_, htokens ▸ mem_storeToken.2 (.inl rfl), rfl, hsome⟩
      · trivial
    · cases hnext
  | removes place =>
    dsimp only at hnext
    split at hnext
    · next user message hat =>
      have hclient := Option.some.inj hnext
      have htokens : s'.client.tokens = s.client.tokens.removeToken user := by rw [← hclient]; rfl
      have hcurrent : s'.current = s.current := hgrants
      have hstands : s.current user = none := h.calls place user _ hat
      refine h.moved hat rfl (by rw [← hclient]; rfl) (fun other hother => ?_) ?_ (fun refreshToken hsome => ?_) ?_
      · refine ⟨by rw [hcurrent], fun entry huser => ?_⟩
        rw [htokens, mem_removeToken]
        exact and_iff_left (huser ▸ hother)
      · rw [htokens]
        intro entry hentry other hother
        exact h.unique entry (mem_removeToken.1 hentry).1 other (mem_removeToken.1 hother).1
      · rw [hcurrent, hstands] at hsome
        cases hsome
      · trivial
    · cases hnext
  | cleans readings clock =>
    obtain ⟨-, hclient⟩ := Option.ite_none_right_eq_some.1 hnext
    have hclient := Option.some.inj hclient
    refine h.cleaned (by rw [← hclient]) hgrants (fun entry hentry => ?_) fun entry hentry hsome => ?_
    · rw [← hclient] at hentry
      exact (List.mem_filter.1 hentry).1
    · rw [← hclient]
      exact List.mem_filter.2 ⟨hentry, by rw [hone entry hentry hsome]; rfl⟩

private theorem Kept.getToken (h : s.Kept) {entry : StoredToken} (hentry : entry ∈ s.client.tokens)
    (huser : entry.user = user) : s.client.tokens.getToken user = some entry := by
  cases hfound : s.client.tokens.getToken user with
  | none => exact absurd huser (by simpa using List.find?_eq_none.1 hfound entry hentry)
  | some other =>
    have hother : other.user = user := by simpa using List.find?_some hfound
    rw [h.unique other (List.mem_of_find?_eq_some hfound) entry hentry (hother.trans huser.symm)]

/-- A token that has run out, and the one that takes its place. -/
private def spentToken : OAuthTokenResponse := ⟨"a1", "bearer", some 0, some "r1", none⟩
private def renewedToken : OAuthTokenResponse := ⟨"a2", "bearer", some 3600, some "r2", none⟩

/-- A provider that accepts one user's refresh token. -/
private def accepts (refreshToken : String) : String → Option String :=
  Function.update (fun _ => none) "ada" (some refreshToken)

private theorem accepts_ada (refreshToken : String) : accepts refreshToken "ada" = some refreshToken :=
  Function.update_self ..

private theorem update_accepts (refreshToken refreshToken' : String) :
    Function.update (accepts refreshToken) "ada" (some refreshToken') = accepts refreshToken' :=
  Function.update_idem ..

private theorem reachable_refreshing {ok : SignIn → OAuthStep → Prop}
    (hexchanges : ok ⟨⟨0, [], []⟩, fun _ => none⟩ (.exchanges "st" "st" "ada" (.ok spentToken)))
    (hbegins : ok ⟨⟨0, [⟨"ada", spentToken, 0⟩], []⟩, accepts "r1"⟩ (.begins "ada"))
    (hreads : ∀ s place, ok s (.reads place)) (hchecks : ∀ s place first second, ok s (.checks place first second)) :
    system.ReachableIf ok ⟨⟨0, [⟨"ada", spentToken, 0⟩], [("ada", .refreshing "r1")]⟩, accepts "r1"⟩ := by
  have hstates : constantTimeEq "st".toUTF8.toList "st".toUTF8.toList = true := by decide +kernel
  have hstored : system.ReachableIf ok ⟨⟨0, [⟨"ada", spentToken, 0⟩], []⟩, accepts "r1"⟩ := by
    refine .step (.init ⟨⟨rfl, rfl⟩, fun _ => rfl⟩) ⟨?_, ?_⟩ hexchanges
    · simp only [OAuthClient.next, exchangeCode, hstates, if_true]
      rfl
    · simp only [Grants, hstates, if_true]
      rfl
  have hbegun : system.ReachableIf ok ⟨⟨0, [⟨"ada", spentToken, 0⟩], [("ada", .begun)]⟩, accepts "r1"⟩ :=
    hstored.step (i := .begins "ada") ⟨rfl, rfl⟩ hbegins
  have hread : system.ReachableIf ok
      ⟨⟨0, [⟨"ada", spentToken, 0⟩], [("ada", .read ⟨"ada", spentToken, 0⟩)]⟩, accepts "r1"⟩ :=
    hbegun.step (i := .reads 0) ⟨rfl, rfl⟩ (hreads _ _)
  exact hread.step (i := .checks 0 0 0) ⟨rfl, rfl⟩ (hchecks _ _ _ _)

/-- Two calls of a user at once send the same refresh token: the second one is refused, and removes the token that the
first one has stored. -/
theorem signed_out_by_second_call :
    ∃ s, system.Reachable s ∧ s.current "ada" = some "r2" ∧ s.client.tokens = [] := by
  have hsent : system.Reachable _ := reachable_refreshing trivial trivial (fun _ _ => trivial) fun _ _ _ _ => trivial
  have hbegun : system.Reachable
      ⟨⟨0, [⟨"ada", spentToken, 0⟩], [("ada", .refreshing "r1"), ("ada", .begun)]⟩, accepts "r1"⟩ :=
    hsent.step (i := .begins "ada") ⟨rfl, rfl⟩ trivial
  have hread : system.Reachable ⟨⟨0, [⟨"ada", spentToken, 0⟩],
      [("ada", .refreshing "r1"), ("ada", .read ⟨"ada", spentToken, 0⟩)]⟩, accepts "r1"⟩ :=
    hbegun.step (i := .reads 1) ⟨rfl, rfl⟩ trivial
  have hsecond : system.Reachable
      ⟨⟨0, [⟨"ada", spentToken, 0⟩], [("ada", .refreshing "r1"), ("ada", .refreshing "r1")]⟩, accepts "r1"⟩ :=
    hread.step (i := .checks 1 0 0) ⟨rfl, rfl⟩ trivial
  have hrenewed : system.Reachable ⟨⟨0, [⟨"ada", spentToken, 0⟩],
      [("ada", .renewed renewedToken), ("ada", .refreshing "r1")]⟩, accepts "r2"⟩ := by
    refine hsecond.step (i := .refreshes 0 (.ok renewedToken)) ⟨rfl, ?_⟩ trivial
    rintro user refreshToken ⟨⟩
    exact ⟨accepts_ada "r1", (update_accepts "r1" "r2").symm⟩
  have hstored : system.Reachable ⟨⟨0, [⟨"ada", renewedToken, 0⟩],
      [("ada", .returned (.ok ⟨renewedToken, 0, 0⟩)), ("ada", .refreshing "r1")]⟩, accepts "r2"⟩ :=
    hrenewed.step (i := .stores 0) ⟨rfl, rfl⟩ trivial
  have hrefused : system.Reachable ⟨⟨0, [⟨"ada", renewedToken, 0⟩], [("ada", .returned (.ok ⟨renewedToken, 0, 0⟩)),
      ("ada", .removing "Token refresh failed and token was removed")]⟩, accepts "r2"⟩ := by
    refine hstored.step (i := .refreshes 1 (.error "invalid_grant")) ⟨rfl, ?_⟩ trivial
    rintro user refreshToken ⟨⟩
    exact ⟨fun hsame => absurd ((accepts_ada "r2").symm.trans hsame) (by decide), rfl⟩
  have hremoved : system.Reachable ⟨⟨0, [], [("ada", .returned (.ok ⟨renewedToken, 0, 0⟩)), ("ada", .returned (.error
      (.tokenExchangeError "Token refresh failed and token was removed")))]⟩, accepts "r2"⟩ :=
    hrefused.step (i := .removes 1) ⟨rfl, rfl⟩ trivial
  exact ⟨_, hremoved, accepts_ada "r2", rfl⟩

end SignIn

end Fusions.Security
