import Mathlib.Algebra.Order.Field.Rat
import Mathlib.Data.Nat.Find

/-! Service tasks and their retry strategy: the loop around `run_loop`, its delays and its counter. -/
namespace Fusions.Core

/-- The nanoseconds that a `Duration` stays below. -/
def nanosLimit : Nat := 2 ^ 64 * 10 ^ 9

structure Duration where
  nanos : Nat
  lt : nanos < nanosLimit
  deriving DecidableEq

def Duration.asSecsF64 (duration : Duration) : ℚ := duration.nanos / 10 ^ 9

/-- A number of seconds in nanoseconds, rounded to the nearest, on a tie to the even one. -/
def roundNanos (secs : ℚ) : Nat :=
  let nanos := secs * 10 ^ 9
  let rest := nanos - (nanos.floor : ℚ)
  if rest < 1 / 2 ∨ rest = 1 / 2 ∧ nanos.floor % 2 = 0 then nanos.floor.toNat else nanos.floor.toNat + 1

/-- `Duration::from_secs_f64`; `none` is its panic. -/
def Duration.fromSecsF64 (secs : ℚ) : Option Duration :=
  if secs < 0 then none
  else if h : roundNanos secs < nanosLimit then some ⟨roundNanos secs, h⟩
  else none

/-- `f64::is_finite` of a product: from this bound on it is rounded to an infinity. -/
def isFinite (secs : ℚ) : Bool := -(2 ^ 1024 - 2 ^ 970) < secs && secs < 2 ^ 1024 - 2 ^ 970

def Duration.min (a b : Duration) : Duration := if a.nanos ≤ b.nanos then a else b

structure RetryStrategy where
  enable : Bool
  retryLimit : Nat
  interval : Duration
  increaseRate : Option ℚ
  maxInterval : Option Duration
  /-- The limit is a `u32`. -/
  retryLimit_lt : retryLimit < 2 ^ 32

def RetryStrategy.default : RetryStrategy where
  enable := false
  retryLimit := 5
  interval := ⟨30 * 10 ^ 9, by decide⟩
  increaseRate := none
  maxInterval := none
  retryLimit_lt := by decide

/-- How a task ends; where its counter overflows, a build with overflow checks panics and one without wraps. -/
inductive Ended (E T : Type) where
  | ok (result : T) (retryCount : Nat)
  | err (err : E)
  | overflowed
  | panicked

/-- What a task did: the calls of `run_loop`, the sleeps, and its end. -/
structure TaskRun (E T : Type) where
  calls : Nat
  sleeps : List Duration
  ended : Ended E T

/-- A run that comes after a call for each of these sleeps. -/
def TaskRun.after {E T : Type} (sleeps : List Duration) (run : TaskRun E T) : TaskRun E T :=
  ⟨sleeps.length + run.calls, sleeps ++ run.sleeps, run.ended⟩

namespace RetryStrategy
variable (strategy : RetryStrategy)

/-- The delay after this one; `none` is a panic. -/
def next (duration : Duration) : Option Duration :=
  match strategy.increaseRate with
  | none => some duration
  | some increaseRate =>
    let nextSecs := duration.asSecsF64 * increaseRate
    let next :=
      if isFinite nextSecs then Duration.fromSecsF64 nextSecs
      else some (strategy.maxInterval.getD strategy.interval)
    next.map fun next =>
      match strategy.maxInterval with
      | some max => next.min max
      | none => next

section
variable {E T : Type}

/-- The loop, on the outcomes of the calls to come. -/
def loop (outcomes : Nat → Except E T) (retryCount : Nat) (duration : Duration) : TaskRun E T :=
  match outcomes 0 with
  | .ok result => ⟨1, [], .ok result retryCount⟩
  | .error err =>
    if retryCount + 1 < 2 ^ 32 then
      if retryCount + 1 > strategy.retryLimit then ⟨1, [], .err err⟩
      else
        match strategy.next duration with
        | none => ⟨1, [], .panicked⟩
        | some duration => (loop (fun i => outcomes (i + 1)) (retryCount + 1) duration).after [duration]
    else ⟨1, [], .overflowed⟩
termination_by 2 ^ 32 - retryCount

def start (outcomes : Nat → Except E T) : TaskRun E T := strategy.loop outcomes 0 strategy.interval

end

/-! What the strategy promises. -/

/-- The retries that the strategy allows. -/
def budget : Nat := if strategy.enable then strategy.retryLimit else 0

section
variable {E T : Type} (outcomes : Nat → Except E T)

def Failed (i : Nat) : Prop := ∃ err, outcomes i = .error err

/-- The first success within the budget is returned, with the number of failures before it, else the last error. -/
def Returns : TaskRun E T → Prop
  | ⟨calls, _, .ok result retryCount⟩ =>
    calls = retryCount + 1 ∧ outcomes retryCount = .ok result ∧ ∀ i < retryCount, Failed outcomes i
  | ⟨calls, _, .err err⟩ =>
    calls = strategy.budget + 1 ∧ outcomes strategy.budget = .error err ∧ ∀ i ≤ strategy.budget, Failed outcomes i
  | ⟨_, _, .overflowed⟩ | ⟨_, _, .panicked⟩ => False

structure Honours (run : TaskRun E T) : Prop where
  calls : run.calls ≤ 1 + strategy.budget
  returns : strategy.Returns outcomes run
  sleeps : strategy.increaseRate.isSome = true → ∀ max ∈ strategy.maxInterval, ∀ duration ∈ run.sleeps,
    duration.nanos ≤ max.nanos

/-- The interval compounded `i` times; a product out of range leaves it as it is. -/
def delay : Nat → Duration
  | 0 => strategy.interval
  | i + 1 => (strategy.next (delay i)).getD (delay i)

/-- The product is a duration, or so large that it is taken for an infinity. -/
def InRange (i : Nat) : Prop :=
  ∀ increaseRate ∈ strategy.increaseRate, isFinite ((strategy.delay i).asSecsF64 * increaseRate) = true →
    0 ≤ (strategy.delay i).asSecsF64 * increaseRate ∧
      roundNanos ((strategy.delay i).asSecsF64 * increaseRate) < nanosLimit

/-- Retries are allowed where one is needed, a success comes before the counter overflows, and the delay of every
retry that is needed is in range. -/
structure Suits : Prop where
  allowed : strategy.enable = true ∨ strategy.retryLimit = 0 ∨ ∃ result, outcomes 0 = .ok result
  counted : strategy.retryLimit + 1 < 2 ^ 32 ∨ ∃ n ≤ strategy.retryLimit, ∃ result, outcomes n = .ok result
  delays : ∀ n < strategy.retryLimit, (∀ i ≤ n, Failed outcomes i) → strategy.InRange n

end

/-! The delays. -/

theorem Duration.min_le_right (a b : Duration) : (a.min b).nanos ≤ b.nanos := by
  unfold Duration.min
  split
  · assumption
  · exact Nat.le_refl _

theorem Duration.fromSecsF64_isSome (secs : ℚ) :
    (Duration.fromSecsF64 secs).isSome = true ↔ 0 ≤ secs ∧ roundNanos secs < nanosLimit := by
  unfold Duration.fromSecsF64
  by_cases hneg : secs < 0
  · simp [hneg]
  · by_cases h : roundNanos secs < nanosLimit
    · simp [hneg, h, not_lt.mp hneg]
    · simp [hneg, h]

theorem next_isSome (i : Nat) : (strategy.next (strategy.delay i)).isSome = true ↔ strategy.InRange i := by
  unfold next InRange
  cases strategy.increaseRate with
  | none => simp
  | some increaseRate =>
    simp only [Option.isSome_map, Option.mem_def, Option.some.injEq, forall_eq']
    split
    · rename_i hfinite
      rw [Duration.fromSecsF64_isSome]
      exact ⟨fun h _ => h, fun h => h hfinite⟩
    · rename_i hfinite
      exact ⟨fun _ h => absurd h hfinite, fun _ => rfl⟩

theorem next_delay {i : Nat} (h : strategy.InRange i) :
    strategy.next (strategy.delay i) = some (strategy.delay (i + 1)) := by
  obtain ⟨duration, hduration⟩ := Option.isSome_iff_exists.mp ((strategy.next_isSome i).mpr h)
  rw [delay, hduration, Option.getD_some]

theorem next_le {duration duration' max : Duration} (hrate : strategy.increaseRate.isSome = true)
    (hmax : strategy.maxInterval = some max) (h : strategy.next duration = some duration') :
    duration'.nanos ≤ max.nanos := by
  obtain ⟨increaseRate, hrate⟩ := Option.isSome_iff_exists.mp hrate
  simp only [next, hrate, hmax, Option.map_eq_some_iff] at h
  obtain ⟨next, _, rfl⟩ := h
  exact Duration.min_le_right next max

/-! The runs. -/
section
variable {E T : Type} {outcomes : Nat → Except E T}

theorem TaskRun.after_after (sleeps sleeps' : List Duration) (run : TaskRun E T) :
    (run.after sleeps').after sleeps = run.after (sleeps ++ sleeps') := by
  simp [TaskRun.after, Nat.add_assoc]

/-- The sleeps of the first `n` retries. -/
def sleepsTo (n : Nat) : List Duration := (List.range n).map fun i => strategy.delay (i + 1)

/-- A run whose first `n` calls fail, up to the call after them. -/
theorem start_failed (n : Nat) (hn : n ≤ strategy.retryLimit) (hfailed : ∀ i < n, Failed outcomes i)
    (hrange : ∀ i < n, strategy.InRange i) :
    strategy.start outcomes =
      (strategy.loop (fun i => outcomes (i + n)) n (strategy.delay n)).after (strategy.sleepsTo n) := by
  induction n with
  | zero => simp [start, sleepsTo, delay, TaskRun.after]
  | succ n ih =>
    obtain ⟨err, herr⟩ := hfailed n (by omega)
    have hlt := strategy.retryLimit_lt
    have hstep : strategy.loop (fun i => outcomes (i + n)) n (strategy.delay n) =
        (strategy.loop (fun i => outcomes (i + (n + 1))) (n + 1) (strategy.delay (n + 1))).after
          [strategy.delay (n + 1)] := by
      rw [loop, Nat.zero_add, herr]
      dsimp only
      rw [if_pos (by omega), if_neg (by omega), strategy.next_delay (hrange n (by omega))]
      dsimp only
      congr 2
      funext i
      rw [Nat.add_right_comm, Nat.add_assoc]
    rw [ih (by omega) (fun i hi => hfailed i (by omega)) (fun i hi => hrange i (by omega)), hstep,
      TaskRun.after_after, sleepsTo, sleepsTo, List.range_succ, List.map_append]
    rfl

theorem start_ok {n : Nat} {result : T} (hn : n ≤ strategy.retryLimit) (hfailed : ∀ i < n, Failed outcomes i)
    (hrange : ∀ i < n, strategy.InRange i) (hok : outcomes n = .ok result) :
    strategy.start outcomes = ⟨n + 1, strategy.sleepsTo n, .ok result n⟩ := by
  rw [strategy.start_failed n hn hfailed hrange, loop, Nat.zero_add, hok]
  simp [TaskRun.after, sleepsTo]

/-- All the calls up to the limit fail. -/
theorem start_exhausted {err : E} (hfailed : ∀ i < strategy.retryLimit, Failed outcomes i)
    (hrange : ∀ i < strategy.retryLimit, strategy.InRange i) (herr : outcomes strategy.retryLimit = .error err) :
    strategy.start outcomes = ⟨strategy.retryLimit + 1, strategy.sleepsTo strategy.retryLimit,
      if strategy.retryLimit + 1 < 2 ^ 32 then .err err else .overflowed⟩ := by
  rw [strategy.start_failed _ (Nat.le_refl _) hfailed hrange, loop, Nat.zero_add, herr]
  dsimp only
  rw [if_pos (Nat.lt_succ_self _)]
  by_cases h : strategy.retryLimit + 1 < 2 ^ 32
  · rw [if_pos h, if_pos h]
    simp [TaskRun.after, sleepsTo]
  · rw [if_neg h, if_neg h]
    simp [TaskRun.after, sleepsTo]

theorem start_panicked {n : Nat} (hn : n < strategy.retryLimit) (hfailed : ∀ i ≤ n, Failed outcomes i)
    (hrange : ∀ i < n, strategy.InRange i) (hout : ¬ strategy.InRange n) :
    (strategy.start outcomes).ended = .panicked := by
  obtain ⟨err, herr⟩ := hfailed n (Nat.le_refl n)
  have hlt := strategy.retryLimit_lt
  have hnone : strategy.next (strategy.delay n) = none := by
    apply Option.not_isSome_iff_eq_none.mp
    rw [strategy.next_isSome]
    exact hout
  rw [strategy.start_failed n (by omega) (fun i hi => hfailed i (by omega)) hrange, loop, Nat.zero_add, herr]
  dsimp only
  rw [if_pos (by omega), if_neg (by omega), hnone]
  rfl

theorem sleepsTo_le {n : Nat} {max : Duration} (hrange : ∀ i < n, strategy.InRange i)
    (hrate : strategy.increaseRate.isSome = true) (hmax : strategy.maxInterval = some max) :
    ∀ duration ∈ strategy.sleepsTo n, duration.nanos ≤ max.nanos := by
  intro duration hduration
  obtain ⟨i, hi, rfl⟩ := List.mem_map.mp hduration
  exact strategy.next_le hrate hmax (strategy.next_delay (hrange i (List.mem_range.mp hi)))

/-- A task ends at its first success, with its calls used up, or at a delay out of range. -/
theorem start_cases (outcomes : Nat → Except E T) :
    (∃ n ≤ strategy.retryLimit, (∃ result, outcomes n = .ok result) ∧ (∀ i < n, Failed outcomes i) ∧
      ∀ i < n, strategy.InRange i) ∨
    ((∀ i ≤ strategy.retryLimit, Failed outcomes i) ∧ ∀ i < strategy.retryLimit, strategy.InRange i) ∨
    ∃ n < strategy.retryLimit, (∀ i ≤ n, Failed outcomes i) ∧ (∀ i < n, strategy.InRange i) ∧
      ¬ strategy.InRange n := by
  classical
  have hcase : ∀ i, Failed outcomes i ∨ ∃ result, outcomes i = .ok result := by
    intro i
    cases h : outcomes i with
    | ok result => exact .inr ⟨result, rfl⟩
    | error err => exact .inl ⟨err, h⟩
  -- the first call that does not lead to another
  by_cases hstop : ∃ n, n ≤ strategy.retryLimit ∧
      ((∃ result, outcomes n = .ok result) ∨ n < strategy.retryLimit ∧ ¬ strategy.InRange n)
  · obtain ⟨hle, hn⟩ := Nat.find_spec hstop
    have hfirst : ∀ i < Nat.find hstop, Failed outcomes i ∧ strategy.InRange i := by
      intro i hi
      have hmin := Nat.find_min hstop hi
      constructor
      · apply (hcase i).resolve_right
        intro hok
        exact hmin ⟨by omega, .inl hok⟩
      · by_contra hout
        exact hmin ⟨by omega, .inr ⟨by omega, hout⟩⟩
    obtain hfail | hok := hcase (Nat.find hstop)
    · refine .inr (.inr ⟨Nat.find hstop, ?_⟩)
      obtain ⟨result, hok⟩ | ⟨hlt, hout⟩ := hn
      · obtain ⟨err, herr⟩ := hfail
        rw [hok] at herr
        cases herr
      · refine ⟨hlt, fun i hi => ?_, fun i hi => (hfirst i hi).2, hout⟩
        obtain rfl | hi := Nat.eq_or_lt_of_le hi
        · exact hfail
        · exact (hfirst i hi).1
    · exact .inl ⟨Nat.find hstop, hle, hok, fun i hi => (hfirst i hi).1, fun i hi => (hfirst i hi).2⟩
  · refine .inr (.inl ⟨fun i hi => ?_, fun i hi => ?_⟩)
    · apply (hcase i).resolve_right
      intro hok
      exact hstop ⟨i, hi, .inl hok⟩
    · by_contra hout
      exact hstop ⟨i, by omega, .inr ⟨hi, hout⟩⟩

theorem not_ok_of_failed {i : Nat} {result : T} (h : Failed outcomes i) : outcomes i ≠ .ok result := by
  obtain ⟨err, herr⟩ := h
  rw [herr]
  nofun

theorem budget_eq (h : strategy.enable = true ∨ strategy.retryLimit = 0) :
    strategy.budget = strategy.retryLimit := by
  unfold budget
  split
  · rfl
  · exact (h.resolve_left (by assumption)).symm

theorem budget_eq_zero (h : ¬ (strategy.enable = true ∨ strategy.retryLimit = 0)) : strategy.budget = 0 := by
  unfold budget
  rw [if_neg fun henable => h (.inl henable)]

/-- What a task that succeeds promises: its retries are allowed. -/
theorem honours_ok {n : Nat} {result : T} (hn : n ≤ strategy.retryLimit) (hok : outcomes n = .ok result)
    (hfailed : ∀ i < n, Failed outcomes i) (hrange : ∀ i < n, strategy.InRange i) :
    strategy.Honours outcomes (strategy.start outcomes) ↔
      strategy.enable = true ∨ strategy.retryLimit = 0 ∨ ∃ result, outcomes 0 = .ok result := by
  rw [strategy.start_ok hn hfailed hrange hok]
  constructor
  · intro h
    have hcalls : n + 1 ≤ 1 + strategy.budget := h.calls
    by_cases hallowed : strategy.enable = true ∨ strategy.retryLimit = 0
    · exact hallowed.imp_right .inl
    · rw [strategy.budget_eq_zero hallowed] at hcalls
      obtain rfl : n = 0 := by omega
      exact .inr (.inr ⟨result, hok⟩)
  · intro h
    refine ⟨?_, ⟨rfl, hok, hfailed⟩, fun hrate max hmax => strategy.sleepsTo_le hrange hrate hmax⟩
    show n + 1 ≤ 1 + strategy.budget
    rw [← or_assoc] at h
    obtain hallowed | ⟨result, hfirst⟩ := h
    · rw [strategy.budget_eq hallowed]
      omega
    · have hzero : n = 0 := by
        by_contra hn
        exact not_ok_of_failed (hfailed 0 (by omega)) hfirst
      omega

/-- What a task that fails to its limit promises: its retries are allowed, and they can be counted. -/
theorem honours_exhausted (hfailed : ∀ i ≤ strategy.retryLimit, Failed outcomes i)
    (hrange : ∀ i < strategy.retryLimit, strategy.InRange i) :
    strategy.Honours outcomes (strategy.start outcomes) ↔
      (strategy.enable = true ∨ strategy.retryLimit = 0) ∧ strategy.retryLimit + 1 < 2 ^ 32 := by
  obtain ⟨err, herr⟩ := hfailed _ (Nat.le_refl _)
  rw [strategy.start_exhausted (fun i hi => hfailed i (by omega)) hrange herr]
  constructor
  · intro h
    have hcalls : strategy.retryLimit + 1 ≤ 1 + strategy.budget := h.calls
    have hreturns := h.returns
    constructor
    · by_contra hallowed
      rw [strategy.budget_eq_zero hallowed] at hcalls
      exact hallowed (.inr (by omega))
    · by_contra hcount
      rw [if_neg hcount] at hreturns
      exact hreturns
  · rintro ⟨hallowed, hcount⟩
    have hbudget := strategy.budget_eq hallowed
    rw [if_pos hcount]
    refine ⟨?_, ⟨?_, ?_, ?_⟩, fun hrate max hmax => strategy.sleepsTo_le hrange hrate hmax⟩
    · show strategy.retryLimit + 1 ≤ 1 + strategy.budget
      omega
    · rw [hbudget]
    · rw [hbudget, herr]
    · rw [hbudget]
      exact hfailed

/-- A task honours its strategy exactly where the strategy suits the outcomes. -/
theorem honours_iff (outcomes : Nat → Except E T) :
    strategy.Honours outcomes (strategy.start outcomes) ↔ strategy.Suits outcomes := by
  obtain ⟨n, hn, ⟨result, hok⟩, hfailed, hrange⟩ | ⟨hfailed, hrange⟩ | ⟨n, hn, hfailed, hrange, hout⟩ :=
    strategy.start_cases outcomes
  · rw [strategy.honours_ok hn hok hfailed hrange]
    refine ⟨fun h => ⟨h, .inr ⟨n, hn, result, hok⟩, fun m _ hm => ?_⟩, Suits.allowed⟩
    apply hrange
    by_contra hle
    exact not_ok_of_failed (hm n (by omega)) hok
  · rw [strategy.honours_exhausted hfailed hrange]
    constructor
    · rintro ⟨hallowed, hcount⟩
      exact ⟨hallowed.imp_right .inl, .inl hcount, fun m hm _ => hrange m hm⟩
    · intro h
      constructor
      · have hallowed := h.allowed
        rw [← or_assoc] at hallowed
        apply hallowed.resolve_right
        rintro ⟨result, hok⟩
        exact not_ok_of_failed (hfailed 0 (Nat.zero_le _)) hok
      · apply h.counted.resolve_right
        rintro ⟨n, hn, result, hok⟩
        exact not_ok_of_failed (hfailed n hn) hok
  · have hended := strategy.start_panicked hn hfailed hrange hout
    constructor
    · intro h
      have hreturns := h.returns
      rw [show strategy.start outcomes = ⟨_, _, .panicked⟩ by rw [← hended]] at hreturns
      exact hreturns.elim
    · intro h
      exact absurd (h.delays n hn hfailed) hout

end

/-- The default strategy is disabled, and a task under it is tried again five times. -/
theorem default_retries : ¬ ∀ (strategy : RetryStrategy) (outcomes : Nat → Except String Nat),
    strategy.Honours outcomes (strategy.start outcomes) := by
  intro h
  have hcalls := (h .default fun _ => .error "down").calls
  rw [RetryStrategy.default.start_exhausted (fun i _ => ⟨"down", rfl⟩) (fun i _ => nofun) rfl] at hcalls
  exact absurd hcalls (by decide)

end RetryStrategy
end Fusions.Core
