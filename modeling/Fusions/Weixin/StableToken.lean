import Mathlib.Algebra.Group.Nat.Defs
import Mathlib.Algebra.Group.Int.Defs
import Fusions.Library.Runs
import Fusions.Library.Calls

/-! The stable access token: the state that the calls of a process share, and the server that issues the tokens. Instants
and durations are in nanoseconds. -/
namespace Fusions.Weixin
open Fusions.Library

inductive XpayError where
  | invalid (code : Int) (message : String)
  | unavailable (message : String)
  deriving DecidableEq, Repr

def xpayErrSystemBusy : Int := -1

def classifyXpayErrcode (errcode : Int) (errmsg : String) : XpayError :=
  if errcode = xpayErrSystemBusy then .unavailable s!"errcode {errcode} ({errmsg})"
  else .invalid errcode errmsg

structure StableTokenResponse where
  accessToken : String
  expiresIn : Int
  errcode : Int
  errmsg : String
  deriving DecidableEq, Repr

/-- `Duration::from_secs`. -/
def fromSecs (secs : Nat) : Nat := secs * 1000000000

/-- The sum of an instant and a duration, which panics from the first instant that an `Instant` cannot hold. -/
def instantAdd (limit instant duration : Nat) : Option Nat :=
  if instant + duration < limit then some (instant + duration) else none

structure StableTokenState where
  token : String
  acquiredAt : Nat
  expiresIn : Nat
  deriving DecidableEq, Repr

/-- What becomes of a request: no response, a status that is no success, a body that is no response, or one. -/
inductive Answer where
  | failed (error : String)
  | status (code : String)
  | malformed (error : String)
  | body (response : StableTokenResponse)
  deriving DecidableEq, Repr

/-- The token of an answer, with its lifetime. -/
def Answer.read : Answer → Except XpayError (String × Nat)
  | .failed error => .error (.unavailable error)
  | .status code => .error (.unavailable s!"http status {code}")
  | .malformed error => .error (.unavailable s!"malformed response body: {error}")
  | .body response =>
    if response.errcode ≠ 0 then .error (classifyXpayErrcode response.errcode response.errmsg)
    else if response.accessToken = "" then .error (.unavailable "stable_token success missing access_token")
    else .ok (response.accessToken, fromSecs (max response.expiresIn 300).toNat)

/-- A token that the server has issued, at a time, for so many seconds. -/
structure Issue where
  token : String
  expiresIn : Int
  time : Nat
  deriving DecidableEq, Repr

/-- What `token` returns, at a time, and if the token was cached. -/
structure Handed where
  token : String
  time : Nat
  cached : Bool
  deriving DecidableEq, Repr

/-- Where a call of `token` stands. -/
inductive TokenPhase where
  | begun
  | refreshing
  | served (answer : Answer) (time : Nat)
  /-- A state that is about to be stored. -/
  | stamped (state : StableTokenState)
  | returned (result : Except XpayError Handed)
  | panicked
  | dropped

/-- `StableTokenManager`, with its calls and the tokens that the server has issued. -/
structure StableTokenManager where
  refreshMargin : Nat
  clock : Nat
  state : Option StableTokenState
  poisoned : Bool
  issued : List Issue
  calls : List TokenPhase

inductive TokenStep where
  | passes (clock : Nat)
  | begins
  /-- A call looks at the state, under the lock. -/
  | looks (place : Nat)
  | serves (place : Nat) (answer : Answer)
  /-- A call has read the answer, and the clock. -/
  | stamps (place : Nat)
  /-- A call stores its state, under the lock. -/
  | stores (place : Nat)
  | drops (place : Nat)

namespace StableTokenManager
variable (limit : Nat) (s : StableTokenManager)

def goes (place : Nat) (phase : TokenPhase) : StableTokenManager := { s with calls := s.calls.set place phase }

/-- What the server issues with an answer. -/
def issues (answer : Answer) (time : Nat) : List Issue :=
  match answer with
  | .body response => [⟨response.accessToken, response.expiresIn, time⟩]
  | _ => []

def next : TokenStep → Option StableTokenManager
  | .passes clock => if s.clock ≤ clock ∧ clock < limit then some { s with clock := clock } else none
  | .begins => some { s with calls := s.calls ++ [.begun] }
  | .looks place =>
    match s.calls[place]? with
    | some .begun =>
      if s.poisoned then some (s.goes place .panicked)
      else
        match s.state with
        | none => some (s.goes place .refreshing)
        | some state =>
          match instantAdd limit state.acquiredAt (state.expiresIn - s.refreshMargin) with
          | none => some { s.goes place .panicked with poisoned := true }
          | some deadline =>
            if s.clock < deadline then some (s.goes place (.returned (.ok ⟨state.token, s.clock, true⟩)))
            else some (s.goes place .refreshing)
    | _ => none
  | .serves place answer =>
    match s.calls[place]? with
    | some .refreshing =>
      some { s.goes place (.served answer s.clock) with issued := s.issued ++ issues answer s.clock }
    | _ => none
  | .stamps place =>
    match s.calls[place]? with
    | some (.served answer _) =>
      match answer.read with
      | .error error => some (s.goes place (.returned (.error error)))
      | .ok (token, expiresIn) => some (s.goes place (.stamped ⟨token, s.clock, expiresIn⟩))
    | _ => none
  | .stores place =>
    match s.calls[place]? with
    | some (.stamped state) =>
      if s.poisoned then some (s.goes place .panicked)
      else some { s.goes place (.returned (.ok ⟨state.token, s.clock, false⟩)) with state := some state }
    | _ => none
  | .drops place =>
    match s.calls[place]? with
    | some .refreshing | some (.served ..) => some (s.goes place .dropped)
    | _ => none

/-- A new manager. -/
def system (limit : Nat) : System StableTokenManager TokenStep where
  init s := s.refreshMargin = fromSecs 300 ∧ s.clock < limit ∧ s.state = none ∧ s.poisoned = false ∧ s.issued = [] ∧ s.calls = []
  step s i s' := s.next limit i = some s'

/-- Answers are read at most so long after the server has given them. -/
def Prompt (latency : Nat) (s : StableTokenManager) : TokenStep → Prop
  | .stamps place => ∀ answer time, s.calls[place]? = some (.served answer time) → s.clock ≤ time + latency
  | _ => True

/-- A state holds the token of an issue, from a time after it. -/
def Acquired (latency : Nat) (state : StableTokenState) : Prop :=
  ∃ issue ∈ s.issued, state.token = issue.token ∧ state.expiresIn = fromSecs (max issue.expiresIn 300).toNat ∧
    issue.time ≤ state.acquiredAt ∧ state.acquiredAt ≤ issue.time + latency ∧ state.acquiredAt ≤ s.clock

/-- A token that is handed out was issued before; a cached one has more than the margin left, but for the latency. -/
def Hands (latency : Nat) (handed : Handed) : Prop :=
  ∃ issue ∈ s.issued, handed.token = issue.token ∧ issue.time ≤ handed.time ∧
    (handed.cached = true → handed.time + fromSecs 300 < issue.time + fromSecs issue.expiresIn.toNat + latency)

/-- A token has been issued whose lifetime ends past every instant. -/
def Overlong : Prop :=
  ∃ issue ∈ s.issued, limit ≤ s.clock + fromSecs issue.expiresIn.toNat

def Accounts (latency : Nat) : TokenPhase → Prop
  | .served answer time => time ≤ s.clock ∧ ∀ issue ∈ issues answer time, issue ∈ s.issued
  | .stamped state => s.Acquired latency state
  | .returned (.ok handed) => s.Hands latency handed
  | .panicked => s.poisoned = true
  | _ => True

structure Sound (latency : Nat) (s : StableTokenManager) : Prop where
  refreshMargin : s.refreshMargin = fromSecs 300
  clock : s.clock < limit
  state : ∀ state ∈ s.state, s.Acquired latency state
  calls : ∀ phase ∈ s.calls, s.Accounts latency phase
  poisoned : s.poisoned = true → s.Overlong limit

/-- What no step takes back. -/
structure Grows (s' : StableTokenManager) : Prop where
  refreshMargin : s'.refreshMargin = s.refreshMargin
  clock : s.clock ≤ s'.clock
  issued : s.issued ⊆ s'.issued
  poisoned : s.poisoned = true → s'.poisoned = true

variable {limit} {s s' : StableTokenManager} {step : TokenStep} {latency : Nat}

theorem next_grows (h : s.next limit step = some s') : s.Grows s' := by
  have hsame : ∀ t : StableTokenManager, t.refreshMargin = s.refreshMargin → t.clock = s.clock →
      t.issued = s.issued → (s.poisoned = true → t.poisoned = true) → s.Grows t :=
    fun t hmargin hclock hissued hpoisoned =>
      ⟨hmargin, Nat.le_of_eq hclock.symm, hissued.symm ▸ List.Subset.refl _, hpoisoned⟩
  unfold next at h
  cases step with
  | passes clock =>
    obtain ⟨⟨hclock, -⟩, hs'⟩ := Option.ite_none_right_eq_some.1 h
    cases hs'
    exact ⟨rfl, hclock, List.Subset.refl _, id⟩
  | begins =>
    cases h
    exact hsame _ rfl rfl rfl id
  | serves place answer =>
    dsimp only at h
    split at h
    · cases h
      exact ⟨rfl, Nat.le_refl _, List.subset_append_left _ _, id⟩
    · cases h
  | looks place | stamps place | stores place | drops place =>
    dsimp only at h
    repeat' split at h
    all_goals cases h
    all_goals exact hsame _ rfl rfl rfl fun hpoisoned => by simp_all [goes]

theorem Acquired.mono {state : StableTokenState} (h : s.Acquired latency state) (hgrows : s.Grows s') :
    s'.Acquired latency state := by
  obtain ⟨issue, hissue, htoken, hexpires, hafter, hlatency, hclock⟩ := h
  exact ⟨issue, hgrows.issued hissue, htoken, hexpires, hafter, hlatency, Nat.le_trans hclock hgrows.clock⟩

theorem Accounts.mono {phase : TokenPhase} (h : s.Accounts latency phase) (hgrows : s.Grows s') :
    s'.Accounts latency phase := by
  cases phase with
  | served answer time =>
    exact ⟨Nat.le_trans h.1 hgrows.clock, fun issue hissue => hgrows.issued (h.2 issue hissue)⟩
  | stamped state => exact Acquired.mono h hgrows
  | returned result =>
    cases result with
    | error => trivial
    | ok handed =>
      obtain ⟨issue, hissue, hrest⟩ := h
      exact ⟨issue, hgrows.issued hissue, hrest⟩
  | panicked => exact hgrows.poisoned h
  | begun | refreshing | dropped => trivial

theorem Overlong.mono (h : s.Overlong limit) (hgrows : s.Grows s') : s'.Overlong limit := by
  obtain ⟨issue, hissue, hlong⟩ := h
  exact ⟨issue, hgrows.issued hissue, Nat.le_trans hlong (Nat.add_le_add_right hgrows.clock _)⟩

theorem read_eq_ok {answer : Answer} {token : String} {expiresIn : Nat} (h : answer.read = .ok (token, expiresIn)) :
    ∃ response, answer = .body response ∧ token = response.accessToken ∧
      expiresIn = fromSecs (max response.expiresIn 300).toNat := by
  cases answer with
  | body response =>
    refine ⟨response, rfl, ?_⟩
    rw [Answer.read] at h
    split at h
    · cases h
    · split at h
      · cases h
      · cases h
        exact ⟨rfl, rfl⟩
  | failed | status | malformed => cases h

/-- A state that is still good hands out its token with more than the margin left. -/
theorem hands_of_deadline {state : StableTokenState} {deadline : Nat} (hmargin : s.refreshMargin = fromSecs 300)
    (h : s.Acquired latency state)
    (hdeadline : instantAdd limit state.acquiredAt (state.expiresIn - s.refreshMargin) = some deadline)
    (hclock : s.clock < deadline) : s.Hands latency ⟨state.token, s.clock, true⟩ := by
  obtain ⟨issue, hissue, htoken, hexpires, hafter, hlatency, hacquired⟩ := h
  obtain ⟨-, hsum⟩ := Option.ite_none_right_eq_some.1 hdeadline
  obtain rfl := Option.some.inj hsum
  refine ⟨issue, hissue, htoken, Nat.le_trans hafter hacquired, fun _ => ?_⟩
  rw [hexpires, hmargin] at hclock
  simp only [fromSecs] at hclock ⊢
  omega

/-- A state whose deadline is no instant has a token whose lifetime ends past every instant. -/
theorem overlong_of_acquired {state : StableTokenState} (hmargin : s.refreshMargin = fromSecs 300)
    (hlimit : s.clock < limit) (h : s.Acquired latency state)
    (hdeadline : instantAdd limit state.acquiredAt (state.expiresIn - s.refreshMargin) = none) : s.Overlong limit := by
  obtain ⟨issue, hissue, -, hexpires, -, -, hacquired⟩ := h
  have hlong : limit ≤ state.acquiredAt + (state.expiresIn - s.refreshMargin) := by
    refine Nat.le_of_not_lt fun hlt => ?_
    rw [instantAdd, if_pos hlt] at hdeadline
    cases hdeadline
  have hafter := Nat.lt_of_lt_of_le hlimit hlong
  refine ⟨issue, hissue, ?_⟩
  rw [hexpires, hmargin] at hlong hafter
  simp only [fromSecs] at hlong hafter ⊢
  omega

theorem Sound.moved {place : Nat} {phase phase' : TokenPhase} (h : s.Sound limit latency) (hgrows : s.Grows s')
    (hcall : s.calls[place]? = some phase) (hcalls : s'.calls = s.calls.set place phase')
    (hclock : s'.clock = s.clock) (hstate : ∀ state ∈ s'.state, s'.Acquired latency state)
    (hphase : s'.Accounts latency phase') (hpoisoned : s'.poisoned = true → s'.Overlong limit) :
    s'.Sound limit latency := by
  refine ⟨hgrows.refreshMargin.trans h.refreshMargin, hclock ▸ h.clock, hstate, fun other hother => ?_, hpoisoned⟩
  rw [hcalls] at hother
  obtain ⟨i, hi⟩ := List.getElem?_of_mem hother
  rcases eq_or_of_moved hcall hi with ⟨-, rfl⟩ | ⟨-, hold⟩
  · exact hphase
  · exact (h.calls other (List.mem_of_getElem? hold)).mono hgrows

/-- A move that leaves the state and the issues as they are. -/
theorem Sound.goes {place : Nat} {phase phase' : TokenPhase} (h : s.Sound limit latency)
    (hcall : s.calls[place]? = some phase) (hphase : s.Accounts latency phase') :
    (s.goes place phase').Sound limit latency :=
  h.moved ⟨rfl, Nat.le_refl _, List.Subset.refl _, id⟩ hcall rfl rfl h.state hphase h.poisoned

theorem Sound.next (h : s.Sound limit latency) (hprompt : s.Prompt latency step) (hnext : s.next limit step = some s') :
    s'.Sound limit latency := by
  have hgrows := next_grows hnext
  unfold StableTokenManager.next at hnext
  cases step with
  | passes clock =>
    obtain ⟨⟨-, hlimit⟩, hs'⟩ := Option.ite_none_right_eq_some.1 hnext
    cases hs'
    exact ⟨h.refreshMargin, hlimit, fun state hstate => (h.state state hstate).mono hgrows,
      fun phase hphase => (h.calls phase hphase).mono hgrows, fun hpoisoned => (h.poisoned hpoisoned).mono hgrows⟩
  | begins =>
    cases hnext
    refine ⟨h.refreshMargin, h.clock, h.state, fun phase hphase => ?_, h.poisoned⟩
    rcases List.mem_append.1 hphase with hphase | hphase
    · exact h.calls phase hphase
    · rw [List.mem_singleton.1 hphase]
      trivial
  | looks place =>
    dsimp only at hnext
    split at hnext
    · next hcall =>
      split at hnext
      · next hpoisoned =>
        cases hnext
        exact h.goes hcall hpoisoned
      · split at hnext
        · cases hnext
          exact h.goes hcall trivial
        · next state hstate =>
          have hacquired := h.state state hstate
          split at hnext
          · next hdeadline =>
            cases hnext
            exact h.moved hgrows hcall rfl rfl h.state rfl fun _ =>
              overlong_of_acquired h.refreshMargin h.clock hacquired hdeadline
          · next deadline hdeadline =>
            split at hnext
            · next hclock =>
              cases hnext
              exact h.goes hcall (hands_of_deadline h.refreshMargin hacquired hdeadline hclock)
            · cases hnext
              exact h.goes hcall trivial
    · cases hnext
  | serves place answer =>
    dsimp only at hnext
    split at hnext
    · next hcall =>
      cases hnext
      exact h.moved hgrows hcall rfl rfl (fun state hstate => (h.state state hstate).mono hgrows)
        ⟨Nat.le_refl _, fun issue hissue => List.mem_append_right _ hissue⟩
        fun hpoisoned => (h.poisoned hpoisoned).mono hgrows
    · cases hnext
  | stamps place =>
    dsimp only at hnext
    split at hnext
    · next answer time hcall =>
      obtain ⟨htime, hissued⟩ := h.calls _ (List.mem_of_getElem? hcall)
      split at hnext
      · cases hnext
        exact h.goes hcall trivial
      · next token expiresIn hread =>
        cases hnext
        obtain ⟨response, rfl, rfl, rfl⟩ := read_eq_ok hread
        exact h.goes hcall ⟨_, hissued _ (List.mem_singleton.2 rfl), rfl, rfl, htime,
          hprompt _ _ hcall, Nat.le_refl _⟩
    · cases hnext
  | stores place =>
    dsimp only at hnext
    split at hnext
    · next state hcall =>
      have hacquired : s.Acquired latency state := h.calls _ (List.mem_of_getElem? hcall)
      split at hnext
      · next hpoisoned =>
        cases hnext
        exact h.goes hcall hpoisoned
      · cases hnext
        obtain ⟨issue, hissue, htoken, -, hafter, -, hclock⟩ := hacquired
        refine h.moved hgrows hcall rfl rfl ?_ ⟨issue, hissue, htoken, Nat.le_trans hafter hclock, nofun⟩ h.poisoned
        rintro _ ⟨⟩
        exact h.calls _ (List.mem_of_getElem? hcall)
    · cases hnext
  | drops place =>
    dsimp only at hnext
    split at hnext
    · next hcall =>
      cases hnext
      exact h.goes hcall trivial
    · next hcall =>
      cases hnext
      exact h.goes hcall trivial
    · cases hnext

theorem sound (h : (system limit).ReachableIf (Prompt latency) s) : s.Sound limit latency := by
  refine h.invariant (P := Sound limit latency) ?_ fun s step s' _ hsound hnext hprompt => hsound.next hprompt hnext
  rintro s ⟨hmargin, hclock, hstate, hpoisoned, -, hcalls⟩
  exact ⟨hmargin, hclock, by simp [hstate], by simp [hcalls], by simp [hpoisoned]⟩

theorem Prompt.mono {latency' : Nat} (hle : latency ≤ latency') (h : s.Prompt latency step) :
    s.Prompt latency' step := by
  cases step with
  | stamps place => exact fun answer time hcall => Nat.le_trans (h answer time hcall) (Nat.add_le_add_left hle time)
  | _ => trivial

/-- In a run there is a longest latency. -/
theorem exists_latency (h : (system limit).Reachable s) : ∃ latency, (system limit).ReachableIf (Prompt latency) s := by
  induction h with
  | init hinit => exact ⟨0, .init hinit⟩
  | @step s s' step _ hstep _ ih =>
    obtain ⟨latency, hreach⟩ := ih
    refine ⟨max latency s.clock, .step (hreach.mono fun t i => Prompt.mono (Nat.le_max_left _ _)) hstep ?_⟩
    cases step with
    | stamps place => exact fun _ time _ => Nat.le_trans (Nat.le_max_right _ _) (Nat.le_add_left _ time)
    | _ => trivial

/-- If answers are read at most so long after they were given, then whatever calls run, and in whatever order they look
and store: each token handed out was issued, and one from the cache has, but for that latency, more than 300 seconds left
of the lifetime that it was issued with. -/
theorem cached_token_lives (h : (system limit).ReachableIf (Prompt latency) s) {handed : Handed}
    (hhanded : .returned (.ok handed) ∈ s.calls) :
    ∃ issue ∈ s.issued, handed.token = issue.token ∧ issue.time ≤ handed.time ∧
      (handed.cached = true → handed.time + fromSecs 300 < issue.time + fromSecs issue.expiresIn.toNat + latency) :=
  (sound h).calls _ hhanded

/-- A manager that has a token of so many seconds from the first call, and a second call. -/
private def fetched (expiresIn : Int) (clock : Nat) (second : TokenPhase) : StableTokenManager :=
  ⟨fromSecs 300, clock, some ⟨"t1", fromSecs 400, fromSecs (max expiresIn 300).toNat⟩, false,
    [⟨"t1", expiresIn, fromSecs 399⟩], [.returned (.ok ⟨"t1", fromSecs 400, false⟩), second]⟩

private theorem fetched_reachable {limit : Nat} (hlimit : fromSecs 400 < limit) (expiresIn : Int) (clock : Nat)
    (hclock : fromSecs 400 ≤ clock ∧ clock < limit) :
    (system limit).ReachableIf (Prompt (fromSecs 1)) (fetched expiresIn clock .begun) := by
  let answer : Answer := .body ⟨"t1", expiresIn, 0, "ok"⟩
  let state : StableTokenState := ⟨"t1", fromSecs 400, fromSecs (max expiresIn 300).toNat⟩
  let issued : List Issue := [⟨"t1", expiresIn, fromSecs 399⟩]
  have hle : fromSecs 399 ≤ fromSecs 400 := by decide
  have hnew : (system limit).ReachableIf (Prompt (fromSecs 1)) ⟨fromSecs 300, fromSecs 399, none, false, [], []⟩ :=
    .init ⟨rfl, Nat.lt_of_le_of_lt hle hlimit, rfl, rfl, rfl, rfl⟩
  have hbegun : (system limit).ReachableIf (Prompt (fromSecs 1))
      ⟨fromSecs 300, fromSecs 399, none, false, [], [.begun]⟩ := hnew.step (i := .begins) rfl trivial
  have hlooked : (system limit).ReachableIf (Prompt (fromSecs 1))
      ⟨fromSecs 300, fromSecs 399, none, false, [], [.refreshing]⟩ := hbegun.step (i := .looks 0) rfl trivial
  have hserved : (system limit).ReachableIf (Prompt (fromSecs 1))
      ⟨fromSecs 300, fromSecs 399, none, false, issued, [.served answer (fromSecs 399)]⟩ :=
    hlooked.step (i := .serves 0 answer) rfl trivial
  have hpassed : (system limit).ReachableIf (Prompt (fromSecs 1))
      ⟨fromSecs 300, fromSecs 400, none, false, issued, [.served answer (fromSecs 399)]⟩ :=
    hserved.step (i := .passes (fromSecs 400)) (if_pos ⟨hle, hlimit⟩) trivial
  have hstamped : (system limit).ReachableIf (Prompt (fromSecs 1))
      ⟨fromSecs 300, fromSecs 400, none, false, issued, [.stamped state]⟩ :=
    hpassed.step (i := .stamps 0) rfl (by rintro _ _ ⟨⟩; exact (by decide : fromSecs 400 ≤ fromSecs 399 + fromSecs 1))
  have hstored : (system limit).ReachableIf (Prompt (fromSecs 1))
      ⟨fromSecs 300, fromSecs 400, some state, false, issued, [.returned (.ok ⟨"t1", fromSecs 400, false⟩)]⟩ :=
    hstamped.step (i := .stores 0) rfl trivial
  have hagain : (system limit).ReachableIf (Prompt (fromSecs 1)) (fetched expiresIn (fromSecs 400) .begun) :=
    hstored.step (i := .begins) rfl trivial
  exact hagain.step (i := .passes clock) (if_pos hclock) trivial

/-- A token of two hours is handed out from the cache an hour later. -/
theorem cached_token_lives_hour : ∃ s : StableTokenManager, ∃ issue ∈ s.issued,
    .returned (.ok ⟨"t1", fromSecs 3600, true⟩) ∈ s.calls ∧ issue.token = "t1" ∧
      fromSecs 3600 + fromSecs 300 < issue.time + fromSecs issue.expiresIn.toNat + fromSecs 1 := by
  have hreach : (system (fromSecs (2 ^ 63))).ReachableIf (Prompt (fromSecs 1))
      (fetched 7200 (fromSecs 3600) (.returned (.ok ⟨"t1", fromSecs 3600, true⟩))) :=
    (fetched_reachable (by decide) 7200 (fromSecs 3600) (by decide)).step (i := .looks 1) rfl trivial
  have hhanded : TokenPhase.returned (.ok ⟨"t1", fromSecs 3600, true⟩) ∈
      (fetched 7200 (fromSecs 3600) (.returned (.ok ⟨"t1", fromSecs 3600, true⟩))).calls :=
    List.mem_cons_of_mem _ List.mem_cons_self
  obtain ⟨issue, hissue, htoken, -, hlives⟩ := cached_token_lives hreach hhanded
  exact ⟨_, issue, hissue, hhanded, htoken.symm, hlives rfl⟩

/-- No step of a poisoned manager hands out a token. -/
theorem handed_of_poisoned (hpoisoned : s.poisoned = true) (h : s.next limit step = some s') {place : Nat}
    {handed : Handed} (hat : s'.calls[place]? = some (.returned (.ok handed))) :
    s.calls[place]? = some (.returned (.ok handed)) := by
  have hmoved : ∀ i phase phase', s'.calls = s.calls.set i phase' → s.calls[i]? = some phase →
      phase' ≠ .returned (.ok handed) → s.calls[place]? = some (.returned (.ok handed)) := by
    intro i phase phase' hcalls hcall hphase
    rw [hcalls] at hat
    rcases eq_or_of_moved hcall hat with ⟨-, hsame⟩ | ⟨-, hold⟩
    · exact absurd hsame.symm hphase
    · exact hold
  unfold next at h
  cases step with
  | passes clock =>
    obtain ⟨-, hs'⟩ := Option.ite_none_right_eq_some.1 h
    cases hs'
    exact hat
  | begins =>
    cases h
    rcases eq_or_of_begun hat with ⟨-, hsame⟩ | hold
    · cases hsame
    · exact hold
  | looks place | stores place =>
    simp only [hpoisoned, if_true] at h
    split at h
    · next hcall =>
      cases h
      exact hmoved _ _ _ rfl hcall (by simp)
    · cases h
  | serves place answer =>
    dsimp only at h
    split at h
    · next hcall =>
      cases h
      exact hmoved _ _ _ rfl hcall (by simp)
    · cases h
  | stamps place =>
    dsimp only at h
    split at h
    · next hcall => split at h <;> cases h <;> exact hmoved _ _ _ rfl hcall (by simp)
    · cases h
  | drops place =>
    dsimp only at h
    split at h
    · next hcall =>
      cases h
      exact hmoved _ _ _ rfl hcall (by simp)
    · next hcall =>
      cases h
      exact hmoved _ _ _ rfl hcall (by simp)
    · cases h

/-- A call panics only after a token has been issued whose lifetime ends past every instant, and from then on no call
hands out a token, whatever runs. -/
theorem down_for_good (h : (system limit).Reachable s) (hpanicked : .panicked ∈ s.calls) :
    s.Overlong limit ∧ ∀ s', (system limit).Run s s' → ∀ (place : Nat) (handed : Handed),
      s'.calls[place]? = some (.returned (.ok handed)) → s.calls[place]? = some (.returned (.ok handed)) := by
  obtain ⟨latency, hreach⟩ := exists_latency h
  have hpoisoned : s.poisoned = true := (sound hreach).calls _ hpanicked
  refine ⟨(sound hreach).poisoned hpoisoned, fun s' hrun => ?_⟩
  refine (hrun.invariant (P := fun t => t.poisoned = true ∧ ∀ (place : Nat) (handed : Handed),
    t.calls[place]? = some (.returned (.ok handed)) → s.calls[place]? = some (.returned (.ok handed))) h
    ⟨hpoisoned, fun _ _ => id⟩ fun t step t' _ ht hstep _ => ?_).2
  exact ⟨(next_grows hstep).poisoned ht.1, fun place handed hat =>
    ht.2 place handed (handed_of_poisoned ht.1 hstep hat)⟩

/-- The longest lifetime that an answer can give, after which the next call panics. -/
theorem down_for_good_longest : ∃ s : StableTokenManager, .panicked ∈ s.calls ∧ s.Overlong (fromSecs (2 ^ 63)) ∧
    ∀ s', (system (fromSecs (2 ^ 63))).Run s s' → ∀ (place : Nat) (handed : Handed),
      s'.calls[place]? = some (.returned (.ok handed)) → s.calls[place]? = some (.returned (.ok handed)) := by
  have hfetched : (system (fromSecs (2 ^ 63))).ReachableIf (Prompt (fromSecs 1))
      (fetched (2 ^ 63 - 1) (fromSecs 400) .begun) := fetched_reachable (by decide) _ _ (by decide)
  have hreach : (system (fromSecs (2 ^ 63))).ReachableIf (Prompt (fromSecs 1))
      { fetched (2 ^ 63 - 1) (fromSecs 400) .panicked with poisoned := true } :=
    hfetched.step (i := .looks 1) rfl trivial
  have hpanicked : TokenPhase.panicked ∈
      ({ fetched (2 ^ 63 - 1) (fromSecs 400) .panicked with poisoned := true } : StableTokenManager).calls :=
    List.mem_cons_of_mem _ List.mem_cons_self
  exact ⟨_, hpanicked, down_for_good hreach.reachable hpanicked⟩

end StableTokenManager

end Fusions.Weixin
