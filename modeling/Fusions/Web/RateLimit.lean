import Mathlib.Algebra.Order.Field.Rat
import Mathlib.Algebra.Order.Floor.Defs
import Mathlib.Data.Rat.Floor
import Fusions.Library.Runs

/-! The keyed token buckets of the rate limiter, over rational amounts and seconds. -/
namespace Fusions.Web
open Fusions.Library

def maxKeys : Nat := 65536

/-- The age in seconds from which a bucket is idle. -/
def idleSecs : ℚ := 3600

structure Bucket where
  tokens : ℚ
  lastRefill : ℚ
  deriving DecidableEq

/-- `Instant::duration_since`, which saturates at zero. -/
def elapsed (since now : ℚ) : ℚ := max (now - since) 0

structure RateLimiterInner where
  buckets : List (String × Bucket)
  capacity : ℚ
  refillPerSec : ℚ
  deriving DecidableEq

namespace RateLimiterInner
variable (l : RateLimiterInner)

/-- `RateLimiter::per_ip` and `per_key`. -/
def new (burst perMinute : Nat) : RateLimiterInner := ⟨[], burst, perMinute / 60⟩

/-- A bucket that survives the pass over a full map. -/
def keeps (now : ℚ) (b : Bucket) : Bool := b.tokens < l.capacity && elapsed b.lastRefill now < idleSecs

/-- The pass that a take makes first when the map is full. -/
def evict (now : ℚ) : RateLimiterInner :=
  if maxKeys ≤ l.buckets.length then { l with buckets := l.buckets.filter fun e => l.keeps now e.2 } else l

/-- The bucket of a key as a take finds it: a new one is full. -/
def refilled (key : String) (now : ℚ) : Bucket :=
  let b := (l.buckets.lookup key).getD ⟨l.capacity, now⟩
  ⟨min (b.tokens + elapsed b.lastRefill now * l.refillPerSec) l.capacity, now⟩

def put (key : String) (b : Bucket) : RateLimiterInner :=
  { l with buckets := (key, b) :: l.buckets.filter (·.1 != key) }

/-- The wait reported with a refusal; without refill the quotient is infinite and is clamped. -/
def retryAfter (tokens : ℚ) : Nat :=
  if l.refillPerSec = 0 then 3600 else (max 1 (min ⌈(1 - tokens) / l.refillPerSec⌉ 3600)).toNat

/-- `take`. It reads the clock for the eviction pass, and again for the refill. -/
def take (key : String) (evictAt now : ℚ) : (Bool × Nat) × RateLimiterInner :=
  let l := l.evict evictAt
  let b := l.refilled key now
  if 1 ≤ b.tokens then ((true, 0), l.put key { b with tokens := b.tokens - 1 })
  else ((false, l.retryAfter b.tokens), l.put key b)

end RateLimiterInner

/-- A call of `take` with its two clock readings. -/
structure Take where
  key : String
  evictAt : ℚ
  now : ℚ

/-- A take on record. -/
structure Taken where
  key : String
  time : ℚ
  admitted : Bool
  deriving DecidableEq

/-- A limiter, the last clock reading, and the takes so far, the latest first. -/
structure Limiter where
  inner : RateLimiterInner
  clock : ℚ
  log : List Taken
  deriving DecidableEq

namespace Limiter
variable (s : Limiter)

def taken (t : Take) : Limiter :=
  let result := s.inner.take t.key t.evictAt t.now
  ⟨result.2, t.now, ⟨t.key, t.now, result.1.1⟩ :: s.log⟩

/-- The clock does not run backwards. -/
def next (t : Take) : Option Limiter :=
  if s.clock ≤ t.evictAt ∧ t.evictAt ≤ t.now then some (s.taken t) else none

end Limiter

/-- The limiters of one configuration, at first without buckets. -/
def limiters (burst perMinute : Nat) : System Limiter Take where
  init s := s.inner = .new burst perMinute ∧ s.log = []
  step s t s' := s.next t = some s'

theorem elapsed_nonneg (since now : ℚ) : 0 ≤ elapsed since now := le_max_right _ _

theorem elapsed_of_le {since now : ℚ} (h : since ≤ now) : elapsed since now = now - since :=
  max_eq_left (sub_nonneg.2 h)

theorem elapsed_mono {since now t : ℚ} (h : now ≤ t) : elapsed since now ≤ elapsed since t :=
  max_le_max_right 0 (sub_le_sub_right h since)

namespace RateLimiterInner
variable (l : RateLimiterInner) {key other : String} {b : Bucket} {now : ℚ}

@[simp] theorem evict_capacity : (l.evict now).capacity = l.capacity := by
  unfold evict
  split <;> rfl

@[simp] theorem evict_refillPerSec : (l.evict now).refillPerSec = l.refillPerSec := by
  unfold evict
  split <;> rfl

@[simp] theorem put_capacity : (l.put key b).capacity = l.capacity := rfl

@[simp] theorem put_refillPerSec : (l.put key b).refillPerSec = l.refillPerSec := rfl

variable {l}

theorem lookup_put : (l.put key b).buckets.lookup key = some b := by
  simp [put]

theorem lookup_put_ne (h : other ≠ key) : (l.put key b).buckets.lookup other = l.buckets.lookup other := by
  have hne : (other == key) = false := beq_false_of_ne h
  have hcons : (l.put key b).buckets.lookup other = (l.buckets.filter (·.1 != key)).lookup other := by
    simp only [put, List.lookup_cons, hne]
  rw [hcons]
  induction l.buckets with
  | nil => rfl
  | cons e es ih =>
    by_cases hkey : e.1 = key
    · rw [List.filter_cons_of_neg (by simpa using hkey), ih, List.lookup_cons, hkey, hne]
    · rw [List.filter_cons_of_pos (by simpa using hkey), List.lookup_cons, List.lookup_cons, ih]

theorem mem_of_lookup (h : l.buckets.lookup key = some b) : (key, b) ∈ l.buckets := by
  obtain ⟨before, after, hsplit, -⟩ := List.lookup_eq_some_iff.1 h
  rw [hsplit]
  exact List.mem_append_right _ (List.mem_cons_self ..)

theorem mem_of_mem_evict {e : String × Bucket} (he : e ∈ (l.evict now).buckets) : e ∈ l.buckets := by
  unfold evict at he
  split at he
  · exact (List.mem_filter.1 he).1
  · exact he

theorem mem_evict_of_keeps {e : String × Bucket} (he : e ∈ l.buckets) (hkeeps : l.keeps now e.2 = true) :
    e ∈ (l.evict now).buckets := by
  unfold evict
  split
  · exact List.mem_filter.2 ⟨he, hkeeps⟩
  · exact he

theorem keeps_of_mem_evict {e : String × Bucket} (hfull : maxKeys ≤ l.buckets.length)
    (he : e ∈ (l.evict now).buckets) : e.2.tokens < l.capacity ∧ elapsed e.2.lastRefill now < idleSecs := by
  rw [evict, if_pos hfull] at he
  simpa [keeps] using (List.mem_filter.1 he).2

theorem length_put_le : (l.put key b).buckets.length ≤ l.buckets.length + 1 :=
  Nat.succ_le_succ (List.length_filter_le ..)

theorem refilled_le (l : RateLimiterInner) (key : String) (now : ℚ) : (l.refilled key now).tokens ≤ l.capacity :=
  min_le_right _ _

@[simp] theorem refilled_lastRefill : (l.refilled key now).lastRefill = now := rfl

/-- Each key has at most one bucket. -/
def Keyed (l : RateLimiterInner) : Prop := (l.buckets.map Prod.fst).Nodup

theorem Keyed.evict (h : l.Keyed) : (l.evict now).Keyed := by
  unfold RateLimiterInner.evict
  split
  · exact h.sublist (List.filter_sublist.map Prod.fst)
  · exact h

theorem Keyed.put (h : l.Keyed) : (l.put key b).Keyed := by
  refine List.nodup_cons.2 ⟨?_, h.sublist (List.filter_sublist.map Prod.fst)⟩
  simp

private theorem lookup_filter {buckets : List (String × Bucket)} {p : String × Bucket → Bool}
    (h : (buckets.map Prod.fst).Nodup) :
    (buckets.filter p).lookup key = (buckets.lookup key).filter fun b => p (key, b) := by
  induction buckets with
  | nil => rfl
  | cons e es ih =>
    obtain ⟨hfresh, hes⟩ := List.nodup_cons.1 h
    obtain ⟨k, b⟩ := e
    by_cases hkey : key = k
    · subst hkey
      have hnone : es.lookup key = none := by
        rw [List.lookup_eq_none_iff]
        intro e he
        simpa using fun heq : key = e.1 => hfresh (List.mem_map.2 ⟨e, he, heq.symm⟩)
      by_cases hp : p (key, b)
      · rw [List.filter_cons_of_pos hp, List.lookup_cons_self, List.lookup_cons_self, Option.filter_some, if_pos hp]
      · rw [List.filter_cons_of_neg hp, ih hes, hnone, List.lookup_cons_self, Option.filter_some, if_neg hp]
        rfl
    · have hne : (key == k) = false := beq_false_of_ne hkey
      by_cases hp : p (k, b)
      · rw [List.filter_cons_of_pos hp, List.lookup_cons, List.lookup_cons, hne, ih hes]
      · rw [List.filter_cons_of_neg hp, ih hes, List.lookup_cons, hne]

/-- A key has its bucket after the pass, or has lost one that the pass does not keep. -/
theorem lookup_evict (h : l.Keyed) : (l.evict now).buckets.lookup key = l.buckets.lookup key ∨
    (l.evict now).buckets.lookup key = none ∧ ∃ b, l.buckets.lookup key = some b ∧ l.keeps now b = false := by
  unfold RateLimiterInner.evict
  split
  · rw [lookup_filter h]
    cases hlookup : l.buckets.lookup key with
    | none => exact .inl rfl
    | some b =>
      cases hkeeps : l.keeps now b with
      | true => exact .inl (by simp [hkeeps])
      | false => exact .inr ⟨by simp [hkeeps], b, rfl, hkeeps⟩
  · exact .inl rfl

variable {burst perMinute : Nat}

/-- A limiter of one configuration, one bucket for a key, and no bucket in debt. -/
structure Sound (burst perMinute : Nat) (l : RateLimiterInner) : Prop where
  capacity : l.capacity = burst
  refill : l.refillPerSec = perMinute / 60
  keyed : l.Keyed
  tokens : ∀ e ∈ l.buckets, 0 ≤ e.2.tokens

namespace Sound

theorem new : (RateLimiterInner.new burst perMinute).Sound burst perMinute :=
  ⟨rfl, rfl, List.nodup_nil, by simp [RateLimiterInner.new]⟩

theorem evict (h : l.Sound burst perMinute) : (l.evict now).Sound burst perMinute := by
  refine ⟨by rw [evict_capacity, h.capacity], by rw [evict_refillPerSec, h.refill], h.keyed.evict, ?_⟩
  intro e he
  exact h.tokens e (mem_of_mem_evict he)

theorem put (h : l.Sound burst perMinute) (hb : 0 ≤ b.tokens) : (l.put key b).Sound burst perMinute := by
  refine ⟨h.capacity, h.refill, h.keyed.put, fun e he => ?_⟩
  rcases List.mem_cons.1 he with rfl | he
  · exact hb
  · exact h.tokens e (List.mem_filter.1 he).1

theorem refill_nonneg (h : l.Sound burst perMinute) : 0 ≤ l.refillPerSec := by
  rw [h.refill]
  positivity

theorem refilled_nonneg (h : l.Sound burst perMinute) (key : String) (now : ℚ) :
    0 ≤ (l.refilled key now).tokens := by
  have hcapacity : 0 ≤ l.capacity := by
    rw [h.capacity]
    positivity
  refine le_min (add_nonneg ?_ (mul_nonneg (elapsed_nonneg _ _) h.refill_nonneg)) hcapacity
  cases hlookup : l.buckets.lookup key with
  | none => exact hcapacity
  | some b => exact h.tokens _ (mem_of_lookup hlookup)

/-- What a take stores: the key's bucket as of now, less than full. -/
theorem take_put (h : l.Sound burst perMinute) (key : String) (evictAt now : ℚ) :
    ∃ b, (l.take key evictAt now).2 = (l.evict evictAt).put key b ∧
    b.lastRefill = now ∧ 0 ≤ b.tokens ∧ (1 ≤ burst → b.tokens < l.capacity) := by
  have hle := refilled_le (l.evict evictAt) key now
  rw [evict_capacity] at hle
  unfold RateLimiterInner.take
  dsimp only
  split
  · next hadmits =>
    refine ⟨_, rfl, rfl, sub_nonneg.2 hadmits, fun _ => ?_⟩
    exact (sub_one_lt _).trans_le hle
  · next hrefuses =>
    refine ⟨_, rfl, rfl, h.evict.refilled_nonneg key now, fun hburst => ?_⟩
    rw [h.capacity]
    exact (not_le.1 hrefuses).trans_le (by exact_mod_cast hburst)

theorem take {evictAt : ℚ} (h : l.Sound burst perMinute) : (l.take key evictAt now).2.Sound burst perMinute := by
  obtain ⟨b, htake, -, htokens, -⟩ := h.take_put key evictAt now
  rw [htake]
  exact h.evict.put htokens

end Sound
end RateLimiterInner

/-- What a step does. -/
theorem Limiter.of_next {s s' : Limiter} {t : Take} (h : s.next t = some s') :
    s.clock ≤ t.evictAt ∧ t.evictAt ≤ t.now ∧ s' = s.taken t := by
  unfold next at h
  split at h
  · next hclock =>
    cases h
    exact ⟨hclock.1, hclock.2, rfl⟩
  · cases h

end Fusions.Web
