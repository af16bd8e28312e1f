import Mathlib.Data.List.Nodup
import Mathlib.Data.List.Pairwise
import Fusions.Library.Runs
import Fusions.Library.Trim

/-! The captcha store: calls of `generate` and `verify` that share it under one mutex. Moments and lengths of time
are in nanoseconds. -/
namespace Fusions.Security.Captcha
open Fusions.Library

/-- `MAX_INFLIGHT`. -/
def maxInflight : Nat := 65536

structure InflightAnswer where
  answer : String
  expiresAt : Nat
  deriving DecidableEq

/-- The hash map of the answers by id. -/
abbrev Inflight := List (String × InflightAnswer)

namespace Inflight

def insert (store : Inflight) (id : String) (answer : InflightAnswer) : Inflight :=
  (id, answer) :: store.filter (·.1 != id)

def remove (store : Inflight) (id : String) : Inflight := store.filter (·.1 != id)

def purgeExpired (store : Inflight) (now : Nat) : Inflight := store.filter fun entry => now < entry.2.expiresAt

/-- The store as `generate` makes room in it: without what is expired, and empty when that is still too much. -/
def roomAt (store : Inflight) (now : Nat) : Inflight :=
  if maxInflight ≤ (store.purgeExpired now).length then [] else store.purgeExpired now

end Inflight

/-- What happened to the store: a challenge inserted, a call of `verify` that took its id, and one that returned. -/
inductive Event where
  | inserted (id answer : String) (time : Nat)
  | looked (call : Nat) (id submitted : String)
  | returned (call : Nat) (result : Bool) (time : Nat)
  deriving DecidableEq

/-- A call of `verify` between its removal and its comparison. -/
structure Verify where
  call : Nat
  id : String
  submitted : String
  stored : InflightAnswer
  deriving DecidableEq

/-- The store and who uses it. A panic under the lock poisons it. The log has the latest event first. -/
structure CaptchaStore where
  inner : Inflight
  poisoned : Bool
  clock : Nat
  calls : Nat
  pending : List Verify
  log : List Event
  deriving DecidableEq

/-- The regions under the lock, and the end of a `verify` that found an answer. -/
inductive Action where
  | generates (id : String) (a b : Nat) (purgedAt now : Nat)
  | looks (id submitted : String)
  | decides (verify : Verify) (now : Nat)

def inserted : Event → Option String
  | .inserted id _ _ => some id
  | _ => none

def lookedBy : Event → Option Nat
  | .looked call _ _ => some call
  | _ => none

/-- What `verify` returns for an answer that it found. -/
def Verify.accepts (verify : Verify) (now : Nat) : Bool :=
  !(verify.stored.expiresAt ≤ now) && verify.stored.answer == trim verify.submitted

namespace CaptchaStore
variable (s : CaptchaStore)

/-- The insertion of `generate`. The end of a challenge may lie after all that an `Instant` can be. -/
def generate (ttl instants : Nat) (id : String) (a b purgedAt now : Nat) : CaptchaStore :=
  let room := s.inner.roomAt purgedAt
  if now + ttl < instants then
    { s with
      inner := room.insert id ⟨toString (a + b), now + ttl⟩
      clock := now
      log := .inserted id (toString (a + b)) now :: s.log }
  else { s with inner := room, poisoned := true, clock := now }

/-- The removal of `verify`, which returns at once where there is nothing. -/
def look (id submitted : String) : CaptchaStore :=
  let s' : CaptchaStore :=
    { s with inner := s.inner.remove id, calls := s.calls + 1, log := .looked s.calls id submitted :: s.log }
  match s.inner.lookup id with
  | none => { s' with log := .returned s.calls false s.clock :: s'.log }
  | some stored => { s' with pending := ⟨s.calls, id, submitted, stored⟩ :: s.pending }

def decide (verify : Verify) (now : Nat) : CaptchaStore :=
  { s with
    clock := now
    pending := s.pending.erase verify
    log := .returned verify.call (verify.accepts now) now :: s.log }

/-- Ids are new, and the clock does not run backwards. -/
def next (ttl instants : Nat) : Action → Option CaptchaStore
  | .generates id a b purgedAt now =>
    if !s.poisoned ∧ 2 ≤ a ∧ a ≤ 19 ∧ 2 ≤ b ∧ b ≤ 19 ∧ id ∉ s.log.filterMap inserted ∧ s.clock ≤ purgedAt ∧
        purgedAt ≤ now then
      some (s.generate ttl instants id a b purgedAt now)
    else none
  | .looks id submitted => if s.poisoned then none else some (s.look id submitted)
  | .decides verify now =>
    if verify ∈ s.pending ∧ s.clock ≤ now then some (s.decide verify now) else none

end CaptchaStore

/-- The runs of a store; `instants` is where the moments end that the platform can represent. -/
def stores (ttl instants : Nat) : System CaptchaStore Action where
  init s := s.inner = [] ∧ s.pending = [] ∧ s.log = [] ∧ s.calls = 0
  step s action s' := s.next ttl instants action = some s'

/-! What is promised. -/

/-- No call took this id. -/
def Untouched (log : List Event) (id : String) : Prop := ∀ call submitted, .looked call id submitted ∉ log

/-- The challenge was inserted and not taken since. -/
def Live (log : List Event) (id answer : String) (time : Nat) : Prop :=
  ∃ later before, log = later ++ .inserted id answer time :: before ∧ Untouched later id

/-- The call was the first to take the challenge after it was inserted. -/
def TakenBy (log : List Event) (call : Nat) (id submitted answer : String) (time : Nat) : Prop :=
  ∃ later before, log = later ++ .looked call id submitted :: before ∧ Live before id answer time

/-- The call returned `true` for this id. -/
def Accepted (log : List Event) (call : Nat) (id submitted : String) (time : Nat) : Prop :=
  .looked call id submitted ∈ log ∧ .returned call true time ∈ log

structure OneShot (ttl : Nat) (s : CaptchaStore) : Prop where
  bounded : s.inner.length ≤ maxInflight
  /-- Who is accepted was the first to take the challenge, with its answer and in time. -/
  first : ∀ call id submitted now, Accepted s.log call id submitted now →
    ∃ time, TakenBy s.log call id submitted (trim submitted) time ∧ now < time + ttl
  once : ∀ id call call' submitted submitted' now now', Accepted s.log call id submitted now →
    Accepted s.log call' id submitted' now' → call = call'

/-! The log. -/
section
variable {log : List Event} {id answer submitted : String} {call time : Nat} {event : Event}

theorem Untouched.cons (h : Untouched log id) (hevent : ∀ call submitted, event ≠ .looked call id submitted) :
    Untouched (event :: log) id := by
  intro call submitted hmem
  obtain heq | hmem := List.mem_cons.mp hmem
  · exact hevent call submitted heq.symm
  · exact h call submitted hmem

theorem Live.cons (h : Live log id answer time) (hevent : ∀ call submitted, event ≠ .looked call id submitted) :
    Live (event :: log) id answer time := by
  obtain ⟨later, before, rfl, hlater⟩ := h
  exact ⟨event :: later, before, rfl, hlater.cons hevent⟩

theorem Live.inserted (log : List Event) (id answer : String) (time : Nat) :
    Live (.inserted id answer time :: log) id answer time :=
  ⟨[], log, rfl, fun _ _ => List.not_mem_nil⟩

theorem Live.mem (h : Live log id answer time) : Event.inserted id answer time ∈ log := by
  obtain ⟨later, before, rfl, _⟩ := h
  simp

theorem TakenBy.cons (h : TakenBy log call id submitted answer time) (event : Event) :
    TakenBy (event :: log) call id submitted answer time := by
  obtain ⟨later, before, rfl, hlive⟩ := h
  exact ⟨event :: later, before, rfl, hlive⟩

theorem TakenBy.mem (h : TakenBy log call id submitted answer time) : Event.looked call id submitted ∈ log := by
  obtain ⟨later, before, rfl, _⟩ := h
  simp

theorem Live.looked (h : Live log id answer time) (call : Nat) (submitted : String) :
    TakenBy (.looked call id submitted :: log) call id submitted answer time :=
  ⟨[], log, rfl, h⟩

/-- Once a challenge is taken it stays so: it was inserted only once. -/
theorem Live.not_taken {before later : List Event} {answer' : String} {time' : Nat}
    (hdistinct : (log.filterMap Captcha.inserted).Nodup) (hlive : Live log id answer time)
    (hlog : log = later ++ .looked call id submitted :: before) : ¬ Live before id answer' time' := by
  intro hbefore
  obtain ⟨later', before', hlog', huntouched⟩ := hlive
  rw [hlog'] at hlog
  obtain ⟨between, hlater, htail⟩ | ⟨between, hlater', htail⟩ := List.append_eq_append_iff.mp hlog
  · -- the insertion lies after the call, and so a second one
    cases between with
    | nil => cases htail
    | cons event between =>
      rw [List.cons_append] at htail
      obtain ⟨rfl, rfl⟩ := List.cons.inj htail
      have hid : Captcha.inserted (.inserted id answer time) = some id := rfl
      rw [hlog', List.filterMap_append, List.filterMap_cons_some hid] at hdistinct
      apply (List.nodup_cons.mp (List.nodup_append.mp hdistinct).2.1).1
      have hmem := List.mem_append_right between (List.mem_cons_of_mem (.looked call id submitted) hbefore.mem)
      exact List.mem_filterMap.mpr ⟨_, hmem, rfl⟩
  · cases between with
    | nil => cases htail
    | cons event between =>
      obtain ⟨rfl, _⟩ := List.cons.inj htail
      apply huntouched call submitted
      rw [hlater']
      simp

theorem TakenBy.unique {call' : Nat} {submitted' answer' : String} {time' : Nat}
    (hdistinct : (log.filterMap inserted).Nodup) (h : TakenBy log call id submitted answer time)
    (h' : TakenBy log call' id submitted' answer' time') : call = call' := by
  obtain ⟨later, before, rfl, hlive⟩ := h
  obtain ⟨later', before', hlog, hlive'⟩ := h'
  have hsub : ∀ {l l' : List Event}, (List.filterMap inserted (l ++ l')).Nodup → (l'.filterMap inserted).Nodup := by
    intro l l' hnodup
    rw [List.filterMap_append] at hnodup
    exact (List.nodup_append.mp hnodup).2.1
  obtain ⟨between, _, htail⟩ | ⟨between, _, htail⟩ := List.append_eq_append_iff.mp hlog
  · cases between with
    | nil => cases htail; rfl
    | cons event between =>
      obtain ⟨_, hbefore⟩ := List.cons.inj htail
      have hnodup := hsub hdistinct
      exact absurd hlive' (hlive.not_taken (hsub (l := [.looked call id submitted]) hnodup) hbefore)
  · cases between with
    | nil => cases htail; rfl
    | cons event between =>
      obtain ⟨_, hbefore⟩ := List.cons.inj htail
      rw [hlog] at hdistinct
      have hnodup := hsub hdistinct
      exact absurd hlive (hlive'.not_taken (hsub (l := [.looked call' id submitted']) hnodup) hbefore)

end

/-! The store. -/
namespace Inflight
variable {store : Inflight} {id : String} {answer : InflightAnswer} {now : Nat}

theorem length_roomAt_lt (store : Inflight) (now : Nat) : (store.roomAt now).length < maxInflight := by
  unfold roomAt
  split
  · decide
  · omega

theorem mem_of_mem_roomAt {entry : String × InflightAnswer} (h : entry ∈ store.roomAt now) : entry ∈ store := by
  unfold roomAt at h
  split at h
  · cases h
  · exact List.mem_of_mem_filter h

theorem length_insert_le : (store.insert id answer).length ≤ store.length + 1 :=
  Nat.succ_le_succ (List.length_filter_le ..)

theorem mem_of_lookup (h : store.lookup id = some answer) : (id, answer) ∈ store := by
  obtain ⟨before, after, rfl, _⟩ := List.lookup_eq_some_iff.mp h
  exact List.mem_append_right _ List.mem_cons_self

end Inflight

theorem Verify.accepts_iff {verify : Verify} {now : Nat} :
    verify.accepts now = true ↔ now < verify.stored.expiresAt ∧ verify.stored.answer = trim verify.submitted := by
  simp [accepts]

/-- What is stored was inserted and not taken since, what a call compares with it was the first to take, and
what it accepts it accepts for this. -/
structure Sound (ttl : Nat) (s : CaptchaStore) : Prop where
  bounded : s.inner.length ≤ maxInflight
  stored : ∀ id answer, (id, answer) ∈ s.inner →
    ∃ time, Live s.log id answer.answer time ∧ answer.expiresAt = time + ttl
  pending : ∀ verify ∈ s.pending, ∃ time, TakenBy s.log verify.call verify.id verify.submitted verify.stored.answer time ∧
    verify.stored.expiresAt = time + ttl
  returned : ∀ call now, .returned call true now ∈ s.log →
    ∃ id submitted time, TakenBy s.log call id submitted (trim submitted) time ∧ now < time + ttl
  distinct : (s.log.filterMap inserted).Nodup
  numbered : (s.log.filterMap lookedBy).Nodup
  below : ∀ call ∈ s.log.filterMap lookedBy, call < s.calls

namespace Sound
variable {ttl instants : Nat} {s s' : CaptchaStore}

theorem init (h : (stores ttl instants).init s) : Sound ttl s := by
  obtain ⟨hinner, hpending, hlog, _⟩ := h
  constructor <;> simp [hinner, hpending, hlog]

/-- A success recorded earlier stays accounted for. -/
theorem returned_cons (h : Sound ttl s) (event : Event) {call now : Nat}
    (hmem : Event.returned call true now ∈ s.log) :
    ∃ id submitted time, TakenBy (event :: s.log) call id submitted (trim submitted) time ∧ now < time + ttl := by
  obtain ⟨id, submitted, time, htaken, hnow⟩ := h.returned call now hmem
  exact ⟨id, submitted, time, htaken.cons event, hnow⟩

theorem pending_cons (h : Sound ttl s) (event : Event) {verify : Verify} (hmem : verify ∈ s.pending) :
    ∃ time, TakenBy (event :: s.log) verify.call verify.id verify.submitted verify.stored.answer time ∧
      verify.stored.expiresAt = time + ttl := by
  obtain ⟨time, htaken, hexpires⟩ := h.pending verify hmem
  exact ⟨time, htaken.cons event, hexpires⟩

theorem stored_cons (h : Sound ttl s) {event : Event} {id : String} {answer : InflightAnswer}
    (hevent : ∀ call submitted, event ≠ .looked call id submitted) (hmem : (id, answer) ∈ s.inner) :
    ∃ time, Live (event :: s.log) id answer.answer time ∧ answer.expiresAt = time + ttl := by
  obtain ⟨time, hlive, hexpires⟩ := h.stored id answer hmem
  exact ⟨time, hlive.cons hevent, hexpires⟩

theorem generate {id : String} {a b purgedAt now : Nat} (h : Sound ttl s)
    (hnew : id ∉ s.log.filterMap inserted) : Sound ttl (s.generate ttl instants id a b purgedAt now) := by
  have hroom := Inflight.length_roomAt_lt s.inner purgedAt
  unfold CaptchaStore.generate
  dsimp only
  split
  · refine ⟨?_, ?_, fun verify hmem => h.pending_cons _ hmem, ?_, ?_, h.numbered, h.below⟩
    · exact Inflight.length_insert_le.trans hroom
    · intro id' answer hmem
      obtain heq | hmem := List.mem_cons.mp hmem
      · obtain ⟨rfl, rfl⟩ := Prod.mk.inj heq
        exact ⟨now, Live.inserted .., rfl⟩
      · refine h.stored_cons (fun _ _ heq => ?_) ?_
        · cases heq
        · exact Inflight.mem_of_mem_roomAt (List.mem_of_mem_filter hmem)
    · intro call now hmem
      obtain heq | hmem := List.mem_cons.mp hmem
      · cases heq
      · exact h.returned_cons _ hmem
    · exact List.nodup_cons.mpr ⟨hnew, h.distinct⟩
  · refine ⟨hroom.le, ?_, h.pending, h.returned, h.distinct, h.numbered, h.below⟩
    intro id answer hmem
    exact h.stored id answer (Inflight.mem_of_mem_roomAt hmem)

theorem look_stored (h : Sound ttl s) (id submitted : String) (id' : String) (answer : InflightAnswer)
    (hmem : (id', answer) ∈ s.inner.remove id) :
    ∃ time, Live (.looked s.calls id submitted :: s.log) id' answer.answer time ∧ answer.expiresAt = time + ttl := by
  obtain ⟨hmem, hne⟩ := List.mem_filter.mp hmem
  apply h.stored_cons _ hmem
  intro call submitted' heq
  injection heq with _ heq _
  rw [heq] at hne
  simp at hne

theorem look (h : Sound ttl s) (id submitted : String) : Sound ttl (s.look id submitted) := by
  have hbounded : (s.inner.remove id).length ≤ maxInflight := (List.length_filter_le ..).trans h.bounded
  have hnumbered : (s.calls :: s.log.filterMap lookedBy).Nodup :=
    List.nodup_cons.mpr ⟨fun hmem => Nat.lt_irrefl _ (h.below _ hmem), h.numbered⟩
  have hbelow : ∀ call ∈ s.calls :: s.log.filterMap lookedBy, call < s.calls + 1 := by
    intro call hmem
    obtain rfl | hmem := List.mem_cons.mp hmem
    · exact Nat.lt_succ_self _
    · exact Nat.lt_succ_of_lt (h.below call hmem)
  unfold CaptchaStore.look
  dsimp only
  cases hlookup : s.inner.lookup id with
  | none =>
    refine ⟨hbounded, ?_, ?_, ?_, h.distinct, hnumbered, hbelow⟩
    · intro id' answer hmem
      obtain ⟨time, hlive, hexpires⟩ := h.look_stored id submitted id' answer hmem
      exact ⟨time, hlive.cons nofun, hexpires⟩
    · intro verify hmem
      obtain ⟨time, htaken, hexpires⟩ := h.pending_cons (.looked s.calls id submitted) hmem
      exact ⟨time, htaken.cons _, hexpires⟩
    · intro call now hmem
      have hmem : Event.returned call true now ∈ s.log := by simpa using hmem
      obtain ⟨id', submitted', time, htaken, hnow⟩ := h.returned_cons (.looked s.calls id submitted) hmem
      exact ⟨id', submitted', time, htaken.cons _, hnow⟩
  | some stored =>
    refine ⟨hbounded, h.look_stored id submitted, ?_, ?_, h.distinct, hnumbered, hbelow⟩
    · intro verify hmem
      obtain rfl | hmem := List.mem_cons.mp hmem
      · obtain ⟨time, hlive, hexpires⟩ := h.stored id stored (Inflight.mem_of_lookup hlookup)
        exact ⟨time, hlive.looked s.calls submitted, hexpires⟩
      · exact h.pending_cons _ hmem
    · intro call now hmem
      have hmem : Event.returned call true now ∈ s.log := by simpa using hmem
      exact h.returned_cons _ hmem

theorem decide {verify : Verify} (h : Sound ttl s) (hverify : verify ∈ s.pending) (now : Nat) :
    Sound ttl (s.decide verify now) := by
  refine ⟨h.bounded, fun id answer hmem => h.stored_cons nofun hmem, ?_, ?_, h.distinct, h.numbered, h.below⟩
  · intro verify' hmem
    exact h.pending_cons _ (List.mem_of_mem_erase hmem)
  · intro call now' hmem
    obtain heq | hmem := List.mem_cons.mp hmem
    · injection heq with hcall hresult hnow
      obtain ⟨htime, hanswer⟩ := Verify.accepts_iff.mp hresult.symm
      obtain ⟨time, htaken, hexpires⟩ := h.pending_cons (.returned verify.call (verify.accepts now) now) hverify
      rw [hexpires] at htime
      rw [hanswer] at htaken
      rw [hcall, hnow]
      exact ⟨verify.id, verify.submitted, time, htaken, htime⟩
    · exact h.returned_cons _ hmem

theorem next {action : Action} (h : Sound ttl s) (hnext : s.next ttl instants action = some s') : Sound ttl s' := by
  cases action with
  | generates id a b purgedAt now =>
    obtain ⟨⟨_, _, _, _, _, hnew, _⟩, heq⟩ := Option.ite_none_right_eq_some.mp hnext
    cases heq
    exact h.generate hnew
  | looks id submitted =>
    obtain ⟨_, heq⟩ := Option.ite_none_left_eq_some.mp hnext
    cases heq
    exact h.look id submitted
  | decides verify now =>
    obtain ⟨⟨hverify, _⟩, heq⟩ := Option.ite_none_right_eq_some.mp hnext
    cases heq
    exact h.decide hverify now

/-- The number of a call tells what it looked for. -/
theorem looked_eq (h : Sound ttl s) {call : Nat} {id id' submitted submitted' : String}
    (hmem : Event.looked call id submitted ∈ s.log) (hmem' : Event.looked call id' submitted' ∈ s.log) :
    id = id' ∧ submitted = submitted' := by
  by_contra hne
  have hevents : Event.looked call id submitted ≠ .looked call id' submitted' := by
    intro heq
    injection heq with _ hid hsubmitted
    exact hne ⟨hid, hsubmitted⟩
  have hpairs := List.pairwise_filterMap.mp h.numbered
  have hsymm : Std.Symm fun event event' : Event =>
      ∀ call, lookedBy event = some call → ∀ call', lookedBy event' = some call' → call ≠ call' := by
    constructor
    intro event event' hcalls call hcall call' hcall'
    exact (hcalls call' hcall' call hcall).symm
  exact hpairs.forall hmem hmem' hevents call rfl call rfl rfl

theorem oneShot (h : Sound ttl s) : OneShot ttl s := by
  refine ⟨h.bounded, ?_, ?_⟩
  · rintro call id submitted now ⟨hlooked, hreturned⟩
    obtain ⟨id', submitted', time, htaken, hnow⟩ := h.returned call now hreturned
    obtain ⟨rfl, rfl⟩ := h.looked_eq hlooked htaken.mem
    exact ⟨time, htaken, hnow⟩
  · rintro id call call' submitted submitted' now now' ⟨hlooked, hreturned⟩ ⟨hlooked', hreturned'⟩
    obtain ⟨_, _, _, htaken, _⟩ := h.returned call now hreturned
    obtain ⟨_, _, _, htaken', _⟩ := h.returned call' now' hreturned'
    obtain ⟨rfl, _⟩ := h.looked_eq hlooked htaken.mem
    obtain ⟨rfl, _⟩ := h.looked_eq hlooked' htaken'.mem
    exact htaken.unique h.distinct htaken'

end Sound

/-- In every run a challenge is accepted at most once, for its first taker, and in time. -/
theorem accepted_once {ttl instants : Nat} {s : CaptchaStore} (hs : (stores ttl instants).Reachable s) :
    OneShot ttl s := by
  apply Sound.oneShot
  apply hs.invariant
  · intro s hinit
    exact Sound.init hinit
  · intro s action s' _ hsound hstep _
    exact hsound.next hstep

/-- A challenge that is answered within its five nanoseconds, with blanks around the answer. -/
theorem answered_in_time : ∃ s, Accepted s.log 0 "c1" " 5 " 4 ∧ OneShot 5 s := by
  let verify : Verify := ⟨0, "c1", " 5 ", "5", 5⟩
  obtain ⟨s, hplay, haccepted⟩ : ∃ s, System.play (fun (s : CaptchaStore) => s.next 5 100) (fun _ _ => True)
      ⟨[], false, 0, 0, [], []⟩ [.generates "c1" 2 3 0 0, .looks "c1" " 5 ", .decides verify 4] = some s ∧
      Accepted s.log 0 "c1" " 5 " 4 := by
    refine ⟨_, rfl, ?_, ?_⟩ <;> decide
  have hreach : (stores 5 100).Reachable s :=
    .play (fun _ _ _ hnext => hnext) (.init ⟨rfl, rfl, rfl, rfl⟩) hplay
  exact ⟨s, haccepted, accepted_once hreach⟩

end Fusions.Security.Captcha
