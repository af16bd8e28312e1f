import Mathlib.Tactic.Linarith
import Mathlib.Tactic.Ring
import Fusions.Web.Buckets

/-! The bound on the admitted requests of a key in a window of time. It holds exactly when an idle hour
refills a bucket. -/
namespace Fusions.Web
open Fusions.Library

namespace Limiter
variable (s : Limiter)

/-- The requests of a key admitted from one time on. -/
def admittedSince (key : String) (a : ℚ) : Nat :=
  s.log.countP fun e => e.key = key ∧ e.admitted ∧ a ≤ e.time

/-- The requests of a key admitted in a window of time. -/
def admittedWithin (key : String) (a b : ℚ) : Nat :=
  s.log.countP fun e => e.key = key ∧ e.admitted ∧ a ≤ e.time ∧ e.time ≤ b

theorem admittedWithin_le (key : String) (a b : ℚ) : s.admittedWithin key a b ≤ s.admittedSince key a := by
  refine List.countP_mono_left fun e _ he => ?_
  simp only [decide_eq_true_eq] at he ⊢
  exact ⟨he.1, he.2.1, he.2.2.1⟩

end Limiter

namespace RateLimiterInner
variable {burst perMinute : Nat} {l : RateLimiterInner} {key other : String} {b : Bucket} {now t : ℚ}

namespace Sound

/-- A bucket that the pass does not keep is full by then, where an idle hour refills it. -/
theorem full_of_dropped (h : l.Sound burst perMinute) (hidle : burst ≤ 60 * perMinute) (ht : now ≤ t)
    (hb : (key, b) ∈ l.buckets) (hdropped : l.keeps now b = false) :
    l.capacity ≤ b.tokens + elapsed b.lastRefill t * l.refillPerSec := by
  rcases Bool.and_eq_false_iff.1 hdropped with hfull | hold
  · have hgain := mul_nonneg (elapsed_nonneg b.lastRefill t) h.refill_nonneg
    have htokens := not_lt.1 (of_decide_eq_false hfull)
    linarith
  · have hage : idleSecs ≤ elapsed b.lastRefill t :=
      (not_lt.1 (of_decide_eq_false hold)).trans (elapsed_mono ht)
    have hgain := mul_le_mul_of_nonneg_right hage h.refill_nonneg
    have hhour : l.capacity ≤ idleSecs * l.refillPerSec := by
      have hcast : (burst : ℚ) ≤ 60 * perMinute := by exact_mod_cast hidle
      rw [h.capacity, h.refill, idleSecs]
      linarith
    have htokens := h.tokens _ hb
    linarith

/-- Where an idle hour refills a bucket, the pass over a full map forgets nothing. -/
theorem refilled_evict (h : l.Sound burst perMinute) (hidle : burst ≤ 60 * perMinute) (ht : now ≤ t) :
    (l.evict now).refilled key t = l.refilled key t := by
  rcases lookup_evict h.keyed with heq | ⟨hnone, b, hb, hdropped⟩
  · unfold refilled
    rw [heq, evict_capacity, evict_refillPerSec]
  · have hfull := h.full_of_dropped hidle ht (mem_of_lookup hb) hdropped
    have hgain := mul_nonneg (elapsed_nonneg t t) h.refill_nonneg
    unfold refilled
    rw [hnone, hb, evict_capacity, evict_refillPerSec]
    simp only [Option.getD_none, Option.getD_some]
    rw [min_eq_right hfull, min_eq_right (le_add_of_nonneg_right hgain)]

end Sound

theorem refilled_put_ne (h : other ≠ key) : (l.put key b).refilled other t = l.refilled other t := by
  unfold refilled
  rw [lookup_put_ne h, put_capacity, put_refillPerSec]

/-- What a bucket holds some time after it was stored. -/
theorem refilled_put_le (l : RateLimiterInner) (key : String) {b : Bucket} {t : ℚ} (h : b.lastRefill ≤ t) :
    ((l.put key b).refilled key t).tokens ≤ b.tokens + (t - b.lastRefill) * l.refillPerSec := by
  unfold refilled
  rw [lookup_put, Option.getD_some, put_refillPerSec]
  dsimp only
  rw [elapsed_of_le h]
  exact min_le_left _ _

section
variable {evictAt : ℚ}

theorem Sound.refilled_take_ne (h : l.Sound burst perMinute) (hidle : burst ≤ 60 * perMinute)
    (hclock : evictAt ≤ now) (ht : now ≤ t) (hne : other ≠ key) :
    (l.take key evictAt now).2.refilled other t = l.refilled other t := by
  rw [← h.refilled_evict hidle (hclock.trans ht)]
  unfold RateLimiterInner.take
  dsimp only
  split
  · exact refilled_put_ne hne
  · exact refilled_put_ne hne

/-- A token is spent on an admission, and time gives tokens. -/
theorem Sound.refilled_take_le (h : l.Sound burst perMinute) (key : String) (hidle : burst ≤ 60 * perMinute)
    (hclock : evictAt ≤ now) (ht : now ≤ t) :
    ((l.take key evictAt now).2.refilled key t).tokens + (if (l.take key evictAt now).1.1 then 1 else 0) ≤
      (l.refilled key now).tokens + (t - now) * l.refillPerSec := by
  have hrate : (l.evict evictAt).refillPerSec = l.refillPerSec := evict_refillPerSec l
  rw [← h.refilled_evict hidle hclock, ← hrate]
  unfold RateLimiterInner.take
  dsimp only
  split
  · have hlater := refilled_put_le (l.evict evictAt) key (t := t)
      (b := ⟨((l.evict evictAt).refilled key now).tokens - 1, now⟩) ht
    simp only [refilled_lastRefill, if_true] at hlater ⊢
    linarith
  · have hlater := refilled_put_le (l.evict evictAt) key (t := t)
      (b := (l.evict evictAt).refilled key now) ht
    simp only [refilled_lastRefill, Bool.false_eq_true, if_false] at hlater ⊢
    linarith

end

end RateLimiterInner

namespace Limiter
variable {burst perMinute : Nat} {s s' : Limiter} {t : Take} {key : String} {a b : ℚ}

/-- What every run of takes keeps, one key seen. -/
structure Bounded (burst perMinute : Nat) (key : String) (s : Limiter) : Prop where
  sound : s.inner.Sound burst perMinute
  past : ∀ e ∈ s.log, e.time ≤ s.clock
  level : ∀ a t, s.clock ≤ t → a ≤ t →
    s.admittedSince key a + (s.inner.refilled key t).tokens ≤ burst + (t - a) * (perMinute / 60)
  window : ∀ a b, a ≤ b → (s.admittedWithin key a b : ℚ) ≤ burst + (b - a) * (perMinute / 60)

namespace Bounded

theorem empty (hinner : s.inner = .new burst perMinute) (hlog : s.log = []) : s.Bounded burst perMinute key := by
  have hrefill : (0 : ℚ) ≤ perMinute / 60 := by positivity
  refine ⟨hinner ▸ .new, by simp [hlog], fun a t _ hat => ?_, fun a b hab => ?_⟩
  · have hlevel := RateLimiterInner.refilled_le s.inner key t
    have hgain := mul_nonneg (sub_nonneg.2 hat) hrefill
    rw [show s.inner.capacity = burst by rw [hinner]; rfl] at hlevel
    simp only [admittedSince, hlog, List.countP_nil, Nat.cast_zero]
    linarith
  · have hgain := mul_nonneg (sub_nonneg.2 hab) hrefill
    simp only [admittedWithin, hlog, List.countP_nil, Nat.cast_zero]
    positivity

/-- An admission counts from its own time on. -/
private theorem admittedSince_taken (s : Limiter) (t : Take) (key : String) (a : ℚ) :
    (s.taken t).admittedSince key a = s.admittedSince key a +
      if t.key = key ∧ (s.inner.take t.key t.evictAt t.now).1.1 ∧ a ≤ t.now then 1 else 0 := by
  unfold admittedSince taken
  dsimp only
  rw [List.countP_cons]
  simp only [decide_eq_true_eq]

private theorem admittedWithin_taken (s : Limiter) (t : Take) (key : String) {a b : ℚ} (h : b < t.now) :
    (s.taken t).admittedWithin key a b = s.admittedWithin key a b := by
  unfold admittedWithin taken
  dsimp only
  rw [List.countP_cons_of_neg]
  simp [h]

theorem taken (h : s.Bounded burst perMinute key) (hidle : burst ≤ 60 * perMinute)
    (hclock : s.clock ≤ t.evictAt) (hnow : t.evictAt ≤ t.now) : (s.taken t).Bounded burst perMinute key := by
  have hpast : ∀ e ∈ (s.taken t).log, e.time ≤ t.now := by
    intro e he
    rcases List.mem_cons.1 he with rfl | he
    · exact le_rfl
    · exact (h.past e he).trans (hclock.trans hnow)
  have hsound : (s.taken t).inner.Sound burst perMinute := h.sound.take
  have hlevel : ∀ a u, t.now ≤ u → a ≤ u → (s.taken t).admittedSince key a +
      ((s.taken t).inner.refilled key u).tokens ≤ burst + (u - a) * (perMinute / 60) := by
    intro a u hu hau
    rw [admittedSince_taken]
    have hrefill := h.sound.refill
    by_cases ha : a ≤ t.now
    · by_cases hkey : t.key = key
      · have hbefore := h.level a t.now (hclock.trans hnow) ha
        have htake := h.sound.refilled_take_le key hidle hnow hu
        rw [hrefill] at htake
        have hafter : ((s.taken t).inner.refilled key u) =
            (s.inner.take key t.evictAt t.now).2.refilled key u := by rw [← hkey]; rfl
        rw [hafter, hkey]
        simp only [true_and, ha, and_true, Nat.cast_add, Nat.cast_ite, Nat.cast_one, Nat.cast_zero]
        linarith
      · have hsame : ((s.taken t).inner.refilled key u) = s.inner.refilled key u :=
          h.sound.refilled_take_ne hidle hnow hu (Ne.symm hkey)
        rw [hsame, if_neg fun hadmits => hkey hadmits.1]
        exact h.level a u ((hclock.trans hnow).trans hu) hau
    · have hnone : s.admittedSince key a = 0 := by
        refine List.countP_eq_zero.2 fun e he hcounts => ?_
        have htime := (of_decide_eq_true hcounts).2.2
        exact ha ((htime.trans (h.past e he)).trans (hclock.trans hnow))
      have hfull := RateLimiterInner.refilled_le (s.taken t).inner key u
      rw [hsound.capacity] at hfull
      have hgain : (0 : ℚ) ≤ (u - a) * (perMinute / 60) := mul_nonneg (sub_nonneg.2 hau) (by positivity)
      rw [hnone, if_neg fun hadmits => ha hadmits.2.2]
      simp only [Nat.add_zero, Nat.cast_zero]
      linarith
  refine ⟨hsound, hpast, hlevel, fun a b hab => ?_⟩
  by_cases hb : b < t.now
  · rw [admittedWithin_taken s t key hb]
    exact h.window a b hab
  · have hbound := hlevel a b (not_lt.1 hb) hab
    have hle : ((s.taken t).admittedWithin key a b : ℚ) ≤ (s.taken t).admittedSince key a := by
      exact_mod_cast admittedWithin_le _ key a b
    have hnonneg := hsound.refilled_nonneg key b
    linarith

end Bounded

/-! A flood of keys fills the map, and an hour later the pass forgets the bucket of the key that spent its
burst. -/

/-- A limiter whose one bucket is of a key admitted some times at one instant. -/
def spent (s : Limiter) (key : String) (time : ℚ) (n : Nat) : Limiter :=
  ⟨{ s.inner with buckets := [(key, ⟨s.inner.capacity - n, time⟩)] }, time,
    List.replicate n ⟨key, time, true⟩ ++ s.log⟩

private theorem taken_first {time : ℚ} (hempty : s.inner.evict time = { s.inner with buckets := [] })
    (hburst : 1 ≤ s.inner.capacity) : s.taken ⟨key, time, time⟩ = s.spent key time 1 := by
  have hfull : ({ s.inner with buckets := [] } : RateLimiterInner).refilled key time =
      ⟨s.inner.capacity, time⟩ := by
    simp [RateLimiterInner.refilled, elapsed]
  simp only [taken, RateLimiterInner.take, hempty, hfull, if_pos hburst, spent, Nat.cast_one]
  rfl

private theorem taken_again {time : ℚ} {n : Nat} (htokens : (n : ℚ) + 1 ≤ s.inner.capacity) :
    (s.spent key time n).taken ⟨key, time, time⟩ = s.spent key time (n + 1) := by
  have hevict : (s.spent key time n).inner.evict time = (s.spent key time n).inner :=
    if_neg (by simp [spent, maxKeys])
  have hsame : (s.spent key time n).inner.refilled key time = ⟨s.inner.capacity - n, time⟩ := by
    simp [RateLimiterInner.refilled, elapsed, spent]
  have hleft : 1 ≤ s.inner.capacity - n := by linarith
  simp only [taken, RateLimiterInner.take, hevict, hsame, if_pos hleft]
  simp [spent, RateLimiterInner.put, List.replicate_succ, sub_sub]

/-- A key that finds no buckets takes its burst at one instant. -/
private theorem drained (perMinute : Nat) {time : ℚ} (hclock : s.clock ≤ time)
    (hempty : s.inner.evict time = { s.inner with buckets := [] }) (hcapacity : s.inner.capacity = burst)
    (key : String) {n : Nat} (hpos : 1 ≤ n) (hn : n ≤ burst) :
    (limiters burst perMinute).Run s (s.spent key time n) := by
  induction n, hpos using Nat.le_induction with
  | base =>
    have hburst : 1 ≤ s.inner.capacity := by
      rw [hcapacity]
      exact_mod_cast hn
    have hstep : s.next ⟨key, time, time⟩ = some (s.taken ⟨key, time, time⟩) := if_pos ⟨hclock, le_rfl⟩
    rw [taken_first hempty hburst] at hstep
    exact .step .refl hstep trivial
  | succ n hpos ih =>
    have htokens : (n : ℚ) + 1 ≤ s.inner.capacity := by
      rw [hcapacity]
      exact_mod_cast hn
    have hstep : (s.spent key time n).next ⟨key, time, time⟩ =
        some ((s.spent key time n).taken ⟨key, time, time⟩) :=
      if_pos ⟨le_rfl, le_rfl⟩
    rw [taken_again htokens] at hstep
    exact (ih (Nat.le_of_succ_le hn)).step hstep trivial

/-- The count of a window grows by what is put on record in it. -/
private theorem admittedWithin_append {flood : List Taken} (hlog : s'.log = flood ++ s.log) (key : String)
    (a b : ℚ) :
    s'.admittedWithin key a b = flood.countP (fun e => e.key = key ∧ e.admitted ∧ a ≤ e.time ∧ e.time ≤ b) +
      s.admittedWithin key a b := by
  rw [admittedWithin, hlog, List.countP_append]
  rfl

/-- A key spends its burst, other keys fill the map, and an hour later the pass over the full map gives the
key a new bucket. -/
private theorem admitted_again (burst perMinute : Nat) (hburst : 1 ≤ burst) :
    ∃ s, (limiters burst perMinute).Reachable s ∧ s.admittedWithin (numbered 0) 0 3600 = 2 * burst := by
  have hinit : (limiters burst perMinute).Reachable ⟨.new burst perMinute, 0, []⟩ := .init ⟨rfl, rfl⟩
  have hspend := drained perMinute (s := ⟨.new burst perMinute, 0, []⟩) (le_refl (0 : ℚ))
    (if_neg (by simp [RateLimiterInner.new, maxKeys])) rfl (numbered 0) hburst (Nat.le_refl burst)
  have hcrowded : (spent ⟨.new burst perMinute, 0, []⟩ (numbered 0) 0 burst).Crowded burst perMinute 1 := by
    refine ⟨⟨rfl, rfl, ?_, ?_⟩, ?_, ?_⟩
    · simp [spent, RateLimiterInner.Keyed]
    · simp [spent, RateLimiterInner.new]
    · simpa [spent, RateLimiterInner.new] using Nat.lt_of_succ_le hburst
    · simp [spent]
  obtain ⟨s, hflood, hfilled, hclock, hlength, flood, hlog, hkeys⟩ := hcrowded.flooded hburst (maxKeys - 1)
  have hclock : s.clock = 0 := hclock
  have hlength : s.inner.buckets.length = maxKeys := hlength.trans (by simp [spent, maxKeys])
  have hforgets : s.inner.evict 3600 = { s.inner with buckets := [] } := by
    have hnone : s.inner.buckets.filter (fun e => s.inner.keeps 3600 e.2) = [] := by
      refine List.filter_eq_nil_iff.2 fun e he => ?_
      rw [RateLimiterInner.keeps, (hfilled.fresh e he).2, hclock]
      simp [elapsed, idleSecs]
    rw [RateLimiterInner.evict, if_pos hlength.ge, hnone]
  have hagain := drained perMinute (hclock.le.trans (by norm_num)) hforgets hfilled.sound.capacity
    (numbered 0) hburst (Nat.le_refl burst)
  refine ⟨_, (hspend.trans (hflood.trans hagain)).reachable hinit, ?_⟩
  have hothers : flood.countP (fun e => e.key = numbered 0 ∧ e.admitted ∧ 0 ≤ e.time ∧ e.time ≤ 3600) = 0 := by
    refine List.countP_eq_zero.2 fun x hx hcounts => ?_
    obtain ⟨i, hi, hkey⟩ := hkeys x hx
    have hzero := numbered_inj (hkey.symm.trans (of_decide_eq_true hcounts).1)
    omega
  rw [admittedWithin_append rfl, admittedWithin_append hlog, hothers, admittedWithin_append rfl]
  simp [admittedWithin, two_mul, List.countP_replicate]

/-- The bound holds on every run exactly when a bucket refills within an hour. -/
theorem admitted_le_iff (burst perMinute : Nat) :
    (∀ s, (limiters burst perMinute).Reachable s → ∀ (key : String) (a b : ℚ), a ≤ b →
      (s.admittedWithin key a b : ℚ) ≤ burst + (b - a) * perMinute / 60) ↔ burst ≤ 60 * perMinute := by
  constructor
  · intro h
    rcases Nat.eq_zero_or_pos burst with hzero | hburst
    · simp [hzero]
    · obtain ⟨s, hs, htwice⟩ := admitted_again burst perMinute hburst
      have hbound := h s hs (numbered 0) 0 3600 (by norm_num)
      rw [htwice] at hbound
      push_cast at hbound
      have hcast : (burst : ℚ) ≤ (60 * perMinute : Nat) := by
        push_cast
        linarith
      exact_mod_cast hcast
  · intro hidle s hs key a b hab
    have hbounded : s.Bounded burst perMinute key := by
      refine hs.invariant (P := Bounded burst perMinute key) ?_ ?_
      · rintro s ⟨hinner, hlog⟩
        exact .empty hinner hlog
      · intro s t s' _ h hstep _
        obtain ⟨hclock, hnow, rfl⟩ := of_next hstep
        exact h.taken hidle hclock hnow
    have hwindow := hbounded.window a b hab
    linarith

/-- A quota of one request without refill admits a second one. -/
theorem quota_renewed : ∃ s, (limiters 1 0).Reachable s ∧ s.admittedWithin (numbered 0) 0 3600 = 2 ∧
    ¬ (s.admittedWithin (numbered 0) 0 3600 : ℚ) ≤ (1 : Nat) + (3600 - 0) * (0 : Nat) / 60 := by
  obtain ⟨s, hs, htwice⟩ := admitted_again 1 0 (Nat.le_refl 1)
  refine ⟨s, hs, htwice, ?_⟩
  rw [htwice]
  norm_num

end Limiter
end Fusions.Web
