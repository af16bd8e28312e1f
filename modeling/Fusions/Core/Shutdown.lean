import Fusions.Library.Runs
import Fusions.Library.Calls

/-! Graceful shutdown: the calls that share the shutdown pair under one async mutex, the subsystems that hold
receivers, and the hooks. -/
namespace Fusions.Core
open Fusions.Library

/-- A shutdown hook, as what it asks the application before it returns. -/
inductive Hook where
  | returns (result : Except String String)
  | isShutdown (rest : Bool → Hook)
  | shutdownRecv (rest : Bool → Hook)

inductive CallKind where
  | shutdown
  | awaitShutdown
  | isShutdown
  | shutdownRecv
  deriving DecidableEq, Repr

inductive Reply where
  | unit
  | bool (value : Bool)
  | receiver (given : Bool)
  deriving DecidableEq, Repr

/-- Where a call stands. All phases between `waits` and `returned` are under the guard: the one of
`await_shutdown` lives to the end of the `if let` that takes the pair. -/
inductive Phase where
  | waits
  | locked
  /-- In `shutdown_tx.await_shutdown()`. -/
  | drains
  /-- At the head of the loop over the hooks. -/
  | loops (index : Nat) (hooks : List Hook)
  | runs (index : Nat) (hook : Hook) (hooks : List Hook)
  | returned (reply : Reply)

structure ShutdownCall where
  kind : CallKind
  phase : Phase

/-- What the calls share. -/
structure ShutdownState where
  /-- The pair has not been taken out of the mutex. -/
  pair : Bool
  /-- The call that has the guard. -/
  holder : Option Nat
  signalled : Bool
  /-- The receivers that subsystems hold. -/
  receivers : Nat
  hooks : List Hook
  /-- The hooks that have been started, in this order. -/
  ran : List Nat

namespace Phase

/-- The call has the guard. -/
def locks : Phase → Bool
  | .waits | .returned _ => false
  | _ => true

def waiting : Phase → Bool
  | .waits => true
  | _ => false

end Phase

/-- What a hook asks for needs the mutex; nothing is done while a call has it. -/
def Hook.ask (m : ShutdownState) : Hook → Option (ShutdownState × Hook)
  | .returns _ => none
  | .isShutdown rest => if m.holder.isNone then some (m, rest !m.pair) else none
  | .shutdownRecv rest =>
    if m.holder.isNone then some ({ m with receivers := m.receivers + m.pair.toNat }, rest m.pair) else none

/-- The next move of the call at this place. -/
def ShutdownCall.move (place : Nat) (m : ShutdownState) (call : ShutdownCall) :
    Option (ShutdownState × Phase) :=
  match call.phase, call.kind with
  | .waits, _ => if m.holder.isNone then some ({ m with holder := some place }, .locked) else none
  | .locked, .shutdown =>
    some ({ m with holder := none, signalled := m.signalled || m.pair }, .returned .unit)
  | .locked, .awaitShutdown =>
    if m.pair then some ({ m with pair := false }, .drains)
    else some ({ m with holder := none }, .returned (.bool false))
  | .locked, .isShutdown => some ({ m with holder := none }, .returned (.bool !m.pair))
  | .locked, .shutdownRecv =>
    some ({ m with holder := none, receivers := m.receivers + m.pair.toNat }, .returned (.receiver m.pair))
  | .drains, _ => if m.receivers = 0 then some ({ m with hooks := [] }, .loops 0 m.hooks) else none
  | .loops _ [], _ => some ({ m with holder := none }, .returned (.bool true))
  | .loops index (hook :: hooks), _ => some ({ m with ran := m.ran ++ [index] }, .runs index hook hooks)
  | .runs index (.returns _) hooks, _ => some (m, .loops (index + 1) hooks)
  | .runs index hook hooks, _ => (hook.ask m).map fun (m, hook) => (m, .runs index hook hooks)
  | .returned _, _ => none

/-- The application while it shuts down. -/
structure ShuttingDown where
  shared : ShutdownState
  calls : List ShutdownCall

inductive ShutdownStep where
  /-- The call at this place makes its next move. -/
  | moves (place : Nat)
  /-- A subsystem that was signalled drops its receiver. -/
  | drops
  deriving DecidableEq, Repr

namespace ShuttingDown
variable (s : ShuttingDown)

def next : ShutdownStep → Option ShuttingDown
  | .moves place => do
    let call ← s.calls[place]?
    let (shared, phase) ← call.move place s.shared
    some ⟨shared, s.calls.set place ⟨call.kind, phase⟩⟩
  | .drops =>
    if s.shared.signalled && s.shared.receivers != 0 then
      some { s with shared := { s.shared with receivers := s.shared.receivers - 1 } }
    else none

/-- Nothing has happened yet; the calls come in any order. -/
def start (receivers : Nat) (hooks : List Hook) (kinds : List CallKind) : ShuttingDown :=
  ⟨⟨true, none, false, receivers, hooks, []⟩, kinds.map fun kind => ⟨kind, .waits⟩⟩

def system (receivers : Nat) (hooks : List Hook) (kinds : List CallKind) : System ShuttingDown ShutdownStep where
  init s := s = start receivers hooks kinds
  step s i s' := s.next i = some s'

/-- A call has not returned. -/
def Pending : Prop := ∃ call ∈ s.calls, ∀ reply, call.phase ≠ .returned reply

/-- The `await_shutdown` at this place returned true. -/
def Shut (place : Nat) : Prop := s.calls[place]? = some ⟨.awaitShutdown, .returned (.bool true)⟩

/-- A call takes the pair only once the subsystems let go of their receivers by themselves: they were signalled,
or there are none. -/
def Orderly : ShutdownStep → Prop
  | .moves place => ∀ call ∈ s.calls[place]?, call.kind = .awaitShutdown → call.phase.waiting = true →
    s.shared.pair = true → s.shared.signalled = true ∨ s.shared.receivers = 0
  | .drops => True

instance (step : ShutdownStep) : Decidable (s.Orderly step) :=
  match step with
  | .moves _ => inferInstanceAs (Decidable (∀ call ∈ s.calls[_]?, _))
  | .drops => inferInstanceAs (Decidable True)

end ShuttingDown

/-- The hook asks the application nothing. -/
def Hook.quiet : Hook → Bool
  | .returns _ => true
  | _ => false

/-- The call has taken the pair. -/
def ShutdownCall.took (call : ShutdownCall) : Bool :=
  match call.kind, call.phase with
  | .awaitShutdown, .drains | .awaitShutdown, .loops .. | .awaitShutdown, .runs ..
  | .awaitShutdown, .returned (.bool true) => true
  | _, _ => false

/-- What a call in this phase has found and left. -/
def ShutdownState.Fits (m : ShutdownState) (registered : List Hook) (kind : CallKind) : Phase → Prop
  | .waits => True
  | .locked => kind = .awaitShutdown → m.pair = true → m.signalled = true ∨ m.receivers = 0
  | .drains => kind = .awaitShutdown ∧ m.pair = false ∧ (m.signalled = true ∨ m.receivers = 0) ∧
    m.hooks = registered ∧ m.ran = []
  | .loops index hooks => kind = .awaitShutdown ∧ m.pair = false ∧ m.receivers = 0 ∧ m.ran = List.range index ∧
    index + hooks.length = registered.length ∧ ∀ hook ∈ hooks, hook.quiet = true
  | .runs index hook hooks => kind = .awaitShutdown ∧ m.pair = false ∧ m.receivers = 0 ∧
    m.ran = List.range (index + 1) ∧ index + 1 + hooks.length = registered.length ∧
    ∀ h ∈ hook :: hooks, h.quiet = true
  | .returned reply => (kind = .shutdown → m.pair = true → m.signalled = true) ∧
    (kind = .awaitShutdown → m.pair = false ∧ (reply = .bool true → m.receivers = 0 ∧
      m.ran = List.range registered.length))

/-- The moves of a call that has the guard once it is past waiting: no hook of it gets an answer. -/
inductive Moves (place : Nat) (m : ShutdownState) : CallKind → Phase → ShutdownState → Phase → Prop where
  | locks {kind : CallKind} : m.holder = none → Moves place m kind .waits { m with holder := some place } .locked
  | signals : Moves place m .shutdown .locked
      { m with holder := none, signalled := m.signalled || m.pair } (.returned .unit)
  | takes : m.pair = true → Moves place m .awaitShutdown .locked { m with pair := false } .drains
  | late : m.pair = false → Moves place m .awaitShutdown .locked { m with holder := none } (.returned (.bool false))
  | tells : Moves place m .isShutdown .locked { m with holder := none } (.returned (.bool !m.pair))
  | hands : Moves place m .shutdownRecv .locked
      { m with holder := none, receivers := m.receivers + m.pair.toNat } (.returned (.receiver m.pair))
  | drained {kind : CallKind} : m.receivers = 0 → Moves place m kind .drains { m with hooks := [] } (.loops 0 m.hooks)
  | finishes {kind : CallKind} {index : Nat} : Moves place m kind (.loops index [])
      { m with holder := none } (.returned (.bool true))
  | begins {kind : CallKind} {index : Nat} {hook : Hook} {hooks : List Hook} :
      Moves place m kind (.loops index (hook :: hooks)) { m with ran := m.ran ++ [index] } (.runs index hook hooks)
  | ends {kind : CallKind} {index : Nat} {result : Except String String} {hooks : List Hook} :
      Moves place m kind (.runs index (.returns result) hooks) m (.loops (index + 1) hooks)

section
variable {place : Nat} {m m' : ShutdownState} {call : ShutdownCall} {kind : CallKind} {phase phase' : Phase}
  {registered : List Hook}

private theorem moves_of_move (h : call.move place m = some (m', phase'))
    (hlock : call.phase.locks = true → m.holder = some place) : Moves place m call.kind call.phase m' phase' := by
  obtain ⟨kind, phase⟩ := call
  cases phase with
  | waits =>
    simp only [ShutdownCall.move, Option.ite_none_right_eq_some, Option.isNone_iff_eq_none] at h
    obtain ⟨hfree, h⟩ := h
    cases h
    exact .locks hfree
  | locked =>
    cases kind with
    | shutdown =>
      cases h
      exact .signals
    | awaitShutdown =>
      simp only [ShutdownCall.move] at h
      split at h
      · next hpair =>
        cases h
        exact .takes hpair
      · next hpair =>
        cases h
        exact .late (by simpa using hpair)
    | isShutdown =>
      cases h
      exact .tells
    | shutdownRecv =>
      cases h
      exact .hands
  | drains =>
    simp only [ShutdownCall.move, Option.ite_none_right_eq_some] at h
    obtain ⟨hnone, h⟩ := h
    cases h
    exact .drained hnone
  | loops index hooks =>
    cases hooks <;> cases h
    · exact .finishes
    · exact .begins
  | runs index hook hooks =>
    cases hook with
    | returns result =>
      cases h
      exact .ends
    | isShutdown rest | shutdownRecv rest => simp [ShutdownCall.move, Hook.ask, hlock rfl] at h
  | returned reply => cases h

/-- Only the holder of the guard moves on, and it keeps the guard until it returns. -/
private theorem Moves.holder (h : Moves place m kind phase m' phase')
    (hlock : phase.locks = true → m.holder = some place) : (m.holder = none ∨ m.holder = some place) ∧
      m'.holder = if phase'.locks then some place else none := by
  cases h with
  | locks hfree => exact ⟨.inl hfree, rfl⟩
  | signals | late | tells | hands | finishes => exact ⟨.inr (hlock rfl), rfl⟩
  | takes | drained | begins | ends => exact ⟨.inr (hlock rfl), hlock rfl⟩

/-- What a move leaves of the shared state for the other calls. -/
private theorem Moves.frame (h : Moves place m kind phase m' phase') (hfits : m.Fits registered kind phase) :
    (m'.pair = true → m.pair = true) ∧ (m.signalled = true → m'.signalled = true) ∧
      (m.pair = false → m'.receivers = m.receivers) ∧
      (ShutdownCall.took ⟨kind, phase⟩ = false → m'.hooks = m.hooks ∧ m'.ran = m.ran) := by
  cases h with
  | locks | late | tells | finishes | ends => exact ⟨id, id, fun _ => rfl, fun _ => ⟨rfl, rfl⟩⟩
  | signals => exact ⟨id, fun h => by simp [h], fun _ => rfl, fun _ => ⟨rfl, rfl⟩⟩
  | takes => exact ⟨nofun, id, fun _ => rfl, fun _ => ⟨rfl, rfl⟩⟩
  | hands => exact ⟨id, id, fun hpair => by simp [hpair], fun _ => ⟨rfl, rfl⟩⟩
  | drained | begins =>
    obtain ⟨rfl, -⟩ := hfits
    exact ⟨id, id, fun _ => rfl, nofun⟩

/-- A call that has the pair keeps it, and one takes it only while it is there. -/
private theorem Moves.took (h : Moves place m kind phase m' phase') (hfits : m.Fits registered kind phase) :
    (m'.pair = m.pair ∧ ShutdownCall.took ⟨kind, phase'⟩ = ShutdownCall.took ⟨kind, phase⟩) ∨
      (m.pair = true ∧ m'.pair = false ∧ ShutdownCall.took ⟨kind, phase'⟩ = true) := by
  cases h with
  | takes hpair => exact .inr ⟨hpair, rfl, rfl⟩
  | locks => cases kind <;> exact .inl ⟨rfl, rfl⟩
  | signals | late | tells | hands => exact .inl ⟨rfl, rfl⟩
  | drained | finishes | begins | ends =>
    obtain ⟨rfl, -⟩ := hfits
    exact .inl ⟨rfl, rfl⟩

private theorem Moves.fits (h : Moves place m kind phase m' phase') (hfits : m.Fits registered kind phase)
    (hopen : m.pair = true → m.hooks = registered ∧ m.ran = [])
    (hquiet : ∀ hook ∈ registered, hook.quiet = true)
    (horderly : kind = .awaitShutdown → phase.waiting = true → m.pair = true →
      m.signalled = true ∨ m.receivers = 0) : m'.Fits registered kind phase' := by
  cases h with
  | locks => exact fun hkind => horderly hkind rfl
  | signals => exact ⟨fun _ hpair => by simp_all, nofun⟩
  | takes hpair =>
    obtain ⟨hhooks, hran⟩ := hopen hpair
    exact ⟨rfl, rfl, hfits rfl hpair, hhooks, hran⟩
  | late hpair => exact ⟨nofun, fun _ => ⟨hpair, nofun⟩⟩
  | tells => exact ⟨nofun, nofun⟩
  | hands => exact ⟨nofun, nofun⟩
  | drained hnone =>
    obtain ⟨hkind, hpair, -, hhooks, hran⟩ := hfits
    exact ⟨hkind, hpair, hnone, hran, by simp [hhooks], by rwa [hhooks]⟩
  | finishes =>
    obtain ⟨hkind, hpair, hnone, hran, hlength, -⟩ := hfits
    refine ⟨fun hshutdown => by simp [hkind] at hshutdown, fun _ => ⟨hpair, fun _ => ⟨hnone, ?_⟩⟩⟩
    rw [← hlength]
    exact hran
  | begins =>
    obtain ⟨hkind, hpair, hnone, hran, hlength, hall⟩ := hfits
    refine ⟨hkind, hpair, hnone, ?_, ?_, hall⟩
    · rw [List.range_succ, ← hran]
    · rw [← hlength, List.length_cons]
      omega
  | ends =>
    obtain ⟨hkind, hpair, hnone, hran, hlength, hall⟩ := hfits
    exact ⟨hkind, hpair, hnone, hran, hlength, fun h hmem => hall h (List.mem_cons_of_mem _ hmem)⟩

/-- What the other calls find still fits them, if none of them has the guard or, in both, the pair. -/
private theorem Fits.other {kind' : CallKind} {other : Phase} (h : m.Fits registered kind' other)
    (hlock : other.locks = false) (hpair : m'.pair = true → m.pair = true)
    (hsignalled : m.signalled = true → m'.signalled = true)
    (hreceivers : m.pair = false → m'.receivers = m.receivers)
    (hran : ShutdownCall.took ⟨kind', other⟩ = true → m'.ran = m.ran) : m'.Fits registered kind' other := by
  cases other with
  | waits => trivial
  | returned reply =>
    obtain ⟨hshutdown, hawait⟩ := h
    refine ⟨fun hkind htrue => hsignalled (hshutdown hkind (hpair htrue)), ?_⟩
    rintro rfl
    obtain ⟨hnone, hdone⟩ := hawait rfl
    refine ⟨Bool.eq_false_iff.2 fun htrue => ?_, ?_⟩
    · rw [hpair htrue] at hnone
      cases hnone
    · rintro rfl
      rw [hreceivers hnone, hran rfl]
      exact hdone rfl
  | locked | drains | loops | runs => cases hlock

end

namespace ShuttingDown
variable {s s' : ShuttingDown} {registered : List Hook} {kinds : List CallKind} {place : Nat} {call : ShutdownCall}

structure Inv (registered : List Hook) (kinds : List CallKind) (s : ShuttingDown) : Prop where
  kinds : s.calls.map ShutdownCall.kind = kinds
  locks : ∀ place, s.shared.holder = some place ↔
    ∃ call : ShutdownCall, s.calls[place]? = some call ∧ call.phase.locks = true
  fits : ∀ call ∈ s.calls, s.shared.Fits registered call.kind call.phase
  untouched : s.shared.pair = true → s.shared.hooks = registered ∧ s.shared.ran = []
  taken : s.shared.pair = false → ∃ (place : Nat) (call : ShutdownCall), s.calls[place]? = some call ∧ call.took = true
  once : ∀ (i j : Nat) (call call' : ShutdownCall), s.calls[i]? = some call → s.calls[j]? = some call' →
    call.took = true → call'.took = true → i = j

/-- A call that took the pair is not there while the pair is. -/
private theorem Inv.not_took (w : Inv registered kinds s) (hpair : s.shared.pair = true) (hcall : call ∈ s.calls) :
    call.took = false := by
  have hfits := w.fits call hcall
  obtain ⟨kind, phase⟩ := call
  cases kind with
  | awaitShutdown =>
    cases phase with
    | drains | loops | runs =>
      rw [hfits.2.1] at hpair
      cases hpair
    | returned reply =>
      rcases reply with _ | ⟨_ | _⟩ | _
      case bool.true =>
        rw [(hfits.2 rfl).1] at hpair
        cases hpair
      all_goals rfl
    | waits | locked => rfl
  | shutdown | isShutdown | shutdownRecv => cases phase <;> rfl

private theorem Inv.of_start (receivers : Nat) :
    Inv registered kinds (start receivers registered kinds) where
  kinds := by simp [start, Function.comp_def]
  locks place := by simp [start, Phase.locks]
  fits call hcall := by
    obtain ⟨kind, -, rfl⟩ := List.mem_map.1 hcall
    trivial
  untouched _ := ⟨rfl, rfl⟩
  taken := nofun
  once i j call call' hi hj htook _ := by
    obtain ⟨kind, -, rfl⟩ := List.mem_map.1 (List.mem_of_getElem? hi)
    cases kind <;> cases htook

/-- While nobody or the call at a place has the guard, no other call has it. -/
private theorem Inv.unlocked_of_ne (w : Inv registered kinds s)
    (hfree : s.shared.holder = none ∨ s.shared.holder = some place) {i : Nat} {other : ShutdownCall} (hi : i ≠ place)
    (hat : s.calls[i]? = some other) : other.phase.locks = false := by
  by_contra hlocks
  have hheld := (w.locks i).2 ⟨other, hat, by simpa using hlocks⟩
  rcases hfree with hfree | hfree
  · rw [hfree] at hheld
    cases hheld
  · rw [hfree] at hheld
    exact hi (Option.some.inj hheld).symm

section
variable {m' : ShutdownState} {phase' : Phase}

private theorem Inv.taken_moved (w : Inv registered kinds s) (hcall : s.calls[place]? = some call)
    (hmoves : Moves place s.shared call.kind call.phase m' phase') (hpair : m'.pair = false) :
    ∃ (i : Nat) (c : ShutdownCall), (s.calls.set place ⟨call.kind, phase'⟩)[i]? = some c ∧ c.took = true := by
  have hmoved : (s.calls.set place ⟨call.kind, phase'⟩)[place]? = some ⟨call.kind, phase'⟩ := by
    rw [getElem?_moved hcall, if_pos rfl]
  rcases hmoves.took (w.fits call (List.mem_of_getElem? hcall)) with ⟨hsame, htook⟩ | ⟨-, -, htook⟩
  · obtain ⟨i, other, hat, hother⟩ := w.taken (hsame ▸ hpair)
    by_cases hi : i = place
    · subst hi
      cases hcall.symm.trans hat
      exact ⟨i, _, hmoved, htook.trans hother⟩
    · exact ⟨i, other, by rw [getElem?_moved hcall, if_neg hi, hat], hother⟩
  · exact ⟨place, _, hmoved, htook⟩

/-- A call that has the pair after a move had it before, or it took it in this move. -/
private theorem Inv.took_before (w : Inv registered kinds s) (hcall : s.calls[place]? = some call)
    (hmoves : Moves place s.shared call.kind call.phase m' phase') {i : Nat} {c : ShutdownCall}
    (hat : (s.calls.set place ⟨call.kind, phase'⟩)[i]? = some c) (htook : c.took = true) :
    (∃ before : ShutdownCall, s.calls[i]? = some before ∧ before.took = true) ∨
      (i = place ∧ s.shared.pair = true) := by
  rw [getElem?_moved hcall] at hat
  by_cases hi : i = place
  · rw [if_pos hi] at hat
    cases hat
    rcases hmoves.took (w.fits call (List.mem_of_getElem? hcall)) with ⟨-, hsame⟩ | ⟨hpair, -⟩
    · exact .inl ⟨call, hi ▸ hcall, hsame.symm.trans htook⟩
    · exact .inr ⟨hi, hpair⟩
  · rw [if_neg hi] at hat
    exact .inl ⟨c, hat, htook⟩

private theorem Inv.once_moved (w : Inv registered kinds s) (hcall : s.calls[place]? = some call)
    (hmoves : Moves place s.shared call.kind call.phase m' phase') (i j : Nat) (c c' : ShutdownCall)
    (hi : (s.calls.set place ⟨call.kind, phase'⟩)[i]? = some c)
    (hj : (s.calls.set place ⟨call.kind, phase'⟩)[j]? = some c') (hc : c.took = true) (hc' : c'.took = true) :
    i = j := by
  have hnone : ∀ {i : Nat} {c : ShutdownCall}, s.shared.pair = true → s.calls[i]? = some c → ¬ c.took = true := by
    intro i c hpair hat htook
    rw [w.not_took hpair (List.mem_of_getElem? hat)] at htook
    cases htook
  rcases w.took_before hcall hmoves hi hc with ⟨before, hat, htook⟩ | ⟨rfl, hpair⟩ <;>
    rcases w.took_before hcall hmoves hj hc' with ⟨before', hat', htook'⟩ | ⟨rfl, hpair'⟩
  · exact w.once i j before before' hat hat' htook htook'
  · exact absurd htook (hnone hpair' hat)
  · exact absurd htook' (hnone hpair hat')
  · rfl

private theorem Inv.locks_moved (w : Inv registered kinds s) (hcall : s.calls[place]? = some call)
    (hfree : s.shared.holder = none ∨ s.shared.holder = some place)
    (hholder : m'.holder = if phase'.locks then some place else none) (i : Nat) :
    m'.holder = some i ↔
      ∃ other, (s.calls.set place ⟨call.kind, phase'⟩)[i]? = some other ∧ other.phase.locks = true := by
  rw [getElem?_moved hcall, hholder]
  by_cases hi : i = place
  · subst hi
    cases hlocks : phase'.locks <;> simp [hlocks]
  · rw [if_neg hi]
    constructor
    · intro hheld
      split at hheld
      · exact absurd (Option.some.inj hheld).symm hi
      · cases hheld
    · rintro ⟨other, hat, hlocks⟩
      rw [w.unlocked_of_ne hfree hi hat] at hlocks
      cases hlocks

private theorem Inv.moves (w : Inv registered kinds s) (hquiet : ∀ hook ∈ registered, hook.quiet = true)
    (hcall : s.calls[place]? = some call) (hmoves : Moves place s.shared call.kind call.phase m' phase')
    (horderly : s.Orderly (.moves place)) :
    Inv registered kinds ⟨m', s.calls.set place ⟨call.kind, phase'⟩⟩ := by
  have hmem : call ∈ s.calls := List.mem_of_getElem? hcall
  obtain ⟨hfree, hholder⟩ := hmoves.holder fun h => (w.locks place).2 ⟨call, hcall, h⟩
  obtain ⟨hpair, hsignalled, hreceivers, hran⟩ := hmoves.frame (w.fits call hmem)
  refine ⟨?_, w.locks_moved hcall hfree hholder, fun other hother => ?_, fun hpair' => ?_,
    w.taken_moved hcall hmoves, w.once_moved hcall hmoves⟩
  · rw [← w.kinds]
    refine List.ext_getElem? fun i => ?_
    rw [List.getElem?_map, List.getElem?_map, getElem?_moved hcall]
    by_cases hi : i = place
    · simp [hi, hcall]
    · rw [if_neg hi]
  · obtain ⟨i, hat⟩ := List.getElem?_of_mem hother
    rw [getElem?_moved hcall] at hat
    by_cases hi : i = place
    · rw [if_pos hi] at hat
      cases hat
      exact hmoves.fits (w.fits call hmem) w.untouched hquiet fun hkind => horderly call hcall hkind
    · rw [if_neg hi] at hat
      refine Fits.other (w.fits other (List.mem_of_getElem? hat)) (w.unlocked_of_ne hfree hi hat) hpair hsignalled
        hreceivers fun htook => (hran ?_).2
      by_contra hmover
      exact hi (w.once i place other call hat hcall htook (by simpa using hmover))
  · obtain ⟨hhooks, hran⟩ := hran (w.not_took (hpair hpair') hmem)
    rw [hhooks, hran]
    exact w.untouched (hpair hpair')

end

private theorem Inv.drops (w : Inv registered kinds s) (hsignalled : s.shared.signalled = true)
    (hheld : s.shared.receivers ≠ 0) :
    Inv registered kinds { s with shared := { s.shared with receivers := s.shared.receivers - 1 } } := by
  refine ⟨w.kinds, w.locks, fun call hcall => ?_, w.untouched, w.taken, w.once⟩
  have hfits := w.fits call hcall
  dsimp only
  cases hphase : call.phase <;> rw [hphase] at hfits
  case waits => trivial
  case locked => exact fun _ _ => .inl hsignalled
  case drains =>
    obtain ⟨hkind, hpair, -, hrest⟩ := hfits
    exact ⟨hkind, hpair, .inl hsignalled, hrest⟩
  case loops | runs => exact absurd hfits.2.2.1 hheld
  case returned reply =>
    exact ⟨hfits.1, fun hkind => ⟨(hfits.2 hkind).1, fun hreply => absurd ((hfits.2 hkind).2 hreply).1 hheld⟩⟩

theorem inv_of_reachable {receivers : Nat} (hquiet : ∀ hook ∈ registered, hook.quiet = true)
    (h : (system receivers registered kinds).ReachableIf Orderly s) : Inv registered kinds s := by
  refine h.invariant ?_ ?_
  · rintro s rfl
    exact .of_start receivers
  · intro s step s' _ w hstep horderly
    have hnext : s.next step = some s' := hstep
    cases step with
    | moves place =>
      simp only [next, Option.bind_eq_bind, Option.bind_eq_some_iff] at hnext
      obtain ⟨call, hcall, ⟨m', phase'⟩, hmove, hs'⟩ := hnext
      cases hs'
      have hlock : call.phase.locks = true → s.shared.holder = some place := fun hlocks =>
        (w.locks place).2 ⟨call, hcall, hlocks⟩
      exact w.moves hquiet hcall (moves_of_move hmove hlock) horderly
    | drops =>
      simp only [next, Option.ite_none_right_eq_some, Bool.and_eq_true, bne_iff_ne, ne_eq] at hnext
      obtain ⟨⟨hsignalled, hheld⟩, hs'⟩ := hnext
      cases hs'
      exact w.drops hsignalled hheld

private theorem next_of_move {m' : ShutdownState} {phase' : Phase} (hcall : s.calls[place]? = some call)
    (hmove : call.move place s.shared = some (m', phase')) :
    s.next (.moves place) = some ⟨m', s.calls.set place ⟨call.kind, phase'⟩⟩ := by
  simp [next, hcall, hmove]

/-- A call under the guard goes on, or waits for subsystems that let go of their receivers. -/
private theorem Inv.holder_moves (w : Inv registered kinds s) (hcall : s.calls[place]? = some call)
    (hlocks : call.phase.locks = true) : ∃ step s', s.Orderly step ∧ s.next step = some s' := by
  have hfits := w.fits call (List.mem_of_getElem? hcall)
  have horderly : s.Orderly (.moves place) := by
    intro other hat _ hwaits
    cases hcall.symm.trans hat
    cases hphase : call.phase <;> simp [hphase, Phase.locks, Phase.waiting] at hlocks hwaits
  have hmoves : ∀ {m' phase'}, call.move place s.shared = some (m', phase') →
      ∃ step s', s.Orderly step ∧ s.next step = some s' := fun hmove =>
    ⟨.moves place, _, horderly, next_of_move hcall hmove⟩
  obtain ⟨kind, phase⟩ := call
  cases phase with
  | waits | returned => cases hlocks
  | locked =>
    cases kind with
    | shutdown | isShutdown | shutdownRecv => exact hmoves rfl
    | awaitShutdown =>
      by_cases hpair : s.shared.pair = true
      · exact hmoves (if_pos hpair)
      · exact hmoves (if_neg hpair)
  | drains =>
    by_cases hzero : s.shared.receivers = 0
    · exact hmoves (if_pos hzero)
    · have hsignalled : s.shared.signalled = true := hfits.2.2.1.resolve_right hzero
      exact ⟨.drops, _, trivial, by rw [next, hsignalled, if_pos (by simpa using hzero)]⟩
  | loops index hooks => cases hooks <;> exact hmoves rfl
  | runs index hook hooks =>
    have hquiet := hfits.2.2.2.2.2 hook (List.mem_cons_self ..)
    cases hook with
    | returns result => exact hmoves rfl
    | isShutdown | shutdownRecv => cases hquiet

private theorem Inv.call_of_kind (w : Inv registered kinds s) {kind : CallKind} (h : kind ∈ kinds) :
    ∃ (place : Nat) (call : ShutdownCall), s.calls[place]? = some call ∧ call.kind = kind := by
  rw [← w.kinds] at h
  obtain ⟨call, hcall, hkind⟩ := List.mem_map.1 h
  obtain ⟨place, hat⟩ := List.getElem?_of_mem hcall
  exact ⟨place, call, hat, hkind⟩

private theorem Inv.goes_on (w : Inv registered kinds s) (hshutdown : .shutdown ∈ kinds) (hpending : s.Pending) :
    ∃ step s', s.Orderly step ∧ s.next step = some s' := by
  cases hholder : s.shared.holder with
  | some place =>
    obtain ⟨call, hcall, hlocks⟩ := (w.locks place).1 hholder
    exact w.holder_moves hcall hlocks
  | none =>
    have hfree : ∀ {place : Nat} {call : ShutdownCall}, s.calls[place]? = some call → call.phase.locks = false := by
      intro place call hcall
      by_contra hlocks
      have hheld := (w.locks place).2 ⟨call, hcall, by simpa using hlocks⟩
      rw [hholder] at hheld
      cases hheld
    -- whoever waits gets the guard
    have hgets : ∀ {place : Nat} {call : ShutdownCall}, s.calls[place]? = some call →
        (∀ reply, call.phase ≠ .returned reply) → s.Orderly (.moves place) →
        ∃ step s', s.Orderly step ∧ s.next step = some s' := by
      intro place call hcall hpending horderly
      have hlocks := hfree hcall
      obtain ⟨kind, phase⟩ := call
      cases phase with
      | waits => exact ⟨_, _, horderly, next_of_move hcall (if_pos (by rw [hholder]; rfl))⟩
      | returned reply => exact absurd rfl (hpending reply)
      | locked | drains | loops | runs => cases hlocks
    by_cases hready : s.shared.pair = true → s.shared.signalled = true ∨ s.shared.receivers = 0
    · obtain ⟨call, hcall, hpending⟩ := hpending
      obtain ⟨place, hat⟩ := List.getElem?_of_mem hcall
      exact hgets hat hpending fun _ _ _ _ => hready
    · obtain ⟨place, call, hat, hkind⟩ := w.call_of_kind hshutdown
      have hfits := w.fits call (List.mem_of_getElem? hat)
      refine hgets hat (fun reply hreturned => hready fun hpair => ?_) fun other hat' hother => ?_
      · rw [hreturned] at hfits
        exact .inl (hfits.1 hkind hpair)
      · cases hat.symm.trans hat'
        rw [hkind] at hother
        cases hother

private theorem Inv.released (w : Inv registered kinds s) (hran : s.shared.ran ≠ []) : s.shared.receivers = 0 := by
  have hpair : s.shared.pair = false := Bool.eq_false_iff.2 fun hpair => hran (w.untouched hpair).2
  obtain ⟨place, call, hat, htook⟩ := w.taken hpair
  have hfits := w.fits call (List.mem_of_getElem? hat)
  obtain ⟨kind, phase⟩ := call
  unfold ShutdownCall.took at htook
  split at htook <;> simp_all [ShutdownState.Fits]

private theorem Inv.shut (w : Inv registered kinds s) (hawait : .awaitShutdown ∈ kinds) (hdone : ¬ s.Pending) :
    (∃ place, s.Shut place) ∧ s.shared.receivers = 0 ∧ s.shared.ran = List.range registered.length := by
  have hreturned : ∀ {place : Nat} {call : ShutdownCall}, s.calls[place]? = some call →
      ∃ reply, call.phase = .returned reply := by
    intro place call hat
    by_contra hwaits
    exact hdone ⟨call, List.mem_of_getElem? hat, fun reply hreply => hwaits ⟨reply, hreply⟩⟩
  have hpair : s.shared.pair = false := by
    obtain ⟨place, call, hat, hkind⟩ := w.call_of_kind hawait
    obtain ⟨reply, hreply⟩ := hreturned hat
    have hfits := w.fits call (List.mem_of_getElem? hat)
    rw [hreply] at hfits
    exact (hfits.2 hkind).1
  obtain ⟨place, ⟨kind, phase⟩, hat, htook⟩ := w.taken hpair
  obtain ⟨reply, hreply⟩ := hreturned hat
  obtain rfl : phase = .returned reply := hreply
  obtain ⟨rfl, rfl⟩ : kind = .awaitShutdown ∧ reply = .bool true := by
    unfold ShutdownCall.took at htook
    split at htook <;> simp_all
  exact ⟨⟨place, hat⟩, ((w.fits _ (List.mem_of_getElem? hat)).2 rfl).2 rfl⟩

/-- In every run in which calls take the pair only once the subsystems let go of their receivers, and over hooks
that ask the application nothing: while a call is pending such a step is possible; one `await_shutdown` at
most returns true, and one does by the end; and by then every hook has run once, in order, and none before all
receivers were dropped. -/
theorem shutdown_graceful {receivers : Nat} (hquiet : ∀ hook ∈ registered, hook.quiet = true)
    (hshutdown : .shutdown ∈ kinds) (hawait : .awaitShutdown ∈ kinds)
    (h : (system receivers registered kinds).ReachableIf Orderly s) :
    (s.Pending → ∃ step s', s.Orderly step ∧ s.next step = some s') ∧
      (∀ i j, s.Shut i → s.Shut j → i = j) ∧ (s.shared.ran ≠ [] → s.shared.receivers = 0) ∧
      (¬ s.Pending → (∃ place, s.Shut place) ∧ s.shared.receivers = 0 ∧
        s.shared.ran = List.range registered.length) := by
  have w := inv_of_reachable hquiet h
  exact ⟨w.goes_on hshutdown, fun i j hi hj => w.once i j _ _ hi hj rfl rfl, w.released, w.shut hawait⟩

/-- The signal comes first; then the receiver goes and the hook runs. -/
theorem shutdown_graceful_signalled :
    ∃ s, (system 1 [.returns (.ok "flush")] [.awaitShutdown, .shutdown]).ReachableIf Orderly s ∧
      (∃ place, s.Shut place) ∧ s.shared.ran = [0] := by
  let s : ShuttingDown := ⟨⟨false, none, true, 0, [], [0]⟩,
    [⟨.awaitShutdown, .returned (.bool true)⟩, ⟨.shutdown, .returned .unit⟩]⟩
  have hplay : System.play next Orderly (start 1 [.returns (.ok "flush")] [.awaitShutdown, .shutdown])
    [.moves 1, .moves 1, .moves 0, .moves 0, .drops, .moves 0, .moves 0, .moves 0, .moves 0] = some s := rfl
  have hreach : (system 1 [.returns (.ok "flush")] [.awaitShutdown, .shutdown]).ReachableIf Orderly s :=
    System.ReachableIf.play (fun _ _ _ hnext => hnext) (.init rfl) hplay
  have hdone : ¬ s.Pending := by
    rintro ⟨call, hcall, hwaits⟩
    rcases List.mem_cons.1 hcall with rfl | hcall
    · exact hwaits _ rfl
    · rw [List.mem_singleton.1 hcall] at hwaits
      exact hwaits _ rfl
  obtain ⟨hshut, -, hran⟩ :=
    (shutdown_graceful (by simp [Hook.quiet]) (by decide) (by decide) hreach).2.2.2 hdone
  exact ⟨s, hreach, hshut, hran⟩

/-- With one receiver, `await_shutdown` first and `shutdown` behind it: the one waits for the receiver, the other
for its guard. -/
theorem await_before_shutdown_sticks :
    ∃ s, (system 1 [] [.awaitShutdown, .shutdown]).Reachable s ∧ s.Pending ∧ ∀ step, s.next step = none := by
  let s₁ : ShuttingDown :=
    ⟨⟨true, some 0, false, 1, [], []⟩, [⟨.awaitShutdown, .locked⟩, ⟨.shutdown, .waits⟩]⟩
  let s₂ : ShuttingDown :=
    ⟨⟨false, some 0, false, 1, [], []⟩, [⟨.awaitShutdown, .drains⟩, ⟨.shutdown, .waits⟩]⟩
  have h₁ : (system 1 [] [.awaitShutdown, .shutdown]).Reachable s₁ :=
    .step (i := .moves 0) (.init rfl) rfl trivial
  have h₂ : (system 1 [] [.awaitShutdown, .shutdown]).Reachable s₂ := h₁.step (i := .moves 0) rfl trivial
  refine ⟨s₂, h₂, ⟨_, List.mem_cons_self .., nofun⟩, fun step => ?_⟩
  rcases step with (_ | _ | place) | _
  all_goals rfl

end ShuttingDown

end Fusions.Core
