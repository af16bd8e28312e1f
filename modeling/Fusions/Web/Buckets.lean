import Mathlib.Data.List.Dedup
import Mathlib.Data.List.Perm.Subperm
import Fusions.Web.RateLimit

/-! The number of buckets of a limiter. The pass over a full map drops what is full or idle and nothing
else, so the cap rests on how many keys came within the hour. -/
namespace Fusions.Web
open Fusions.Library

namespace Limiter
variable (s : Limiter)

/-- The keys taken in the hour before a take, its own included. -/
def recentKeys (t : Take) : List String :=
  (t.key :: (s.log.filter fun e => t.evictAt - e.time < idleSecs).map Taken.key).dedup

/-- The keys of the hour fit under the cap, or buckets have no capacity. -/
def RoomFor (t : Take) : Prop := s.inner.capacity = 0 ∨ (s.recentKeys t).length ≤ maxKeys

/-- The buckets are those of the keys on record, and none of the last hour is missing. -/
structure Tracked (burst perMinute : Nat) (s : Limiter) : Prop where
  sound : s.inner.Sound burst perMinute
  past : ∀ x ∈ s.log, x.time ≤ s.clock
  logged : ∀ e ∈ s.inner.buckets, ∃ x ∈ s.log, x.key = e.1 ∧ x.time = e.2.lastRefill
  spent : 1 ≤ burst → ∀ e ∈ s.inner.buckets, e.2.tokens < s.inner.capacity
  held : 1 ≤ burst → ∀ x ∈ s.log, s.clock - x.time < idleSecs →
    ∃ b, (x.key, b) ∈ s.inner.buckets ∧ x.time ≤ b.lastRefill

section
variable {burst perMinute : Nat} {s : Limiter} {t : Take}

private theorem inner_taken (h : s.inner.Sound burst perMinute) :
    ∃ b, (s.taken t).inner = (s.inner.evict t.evictAt).put t.key b ∧
      b.lastRefill = t.now ∧ 0 ≤ b.tokens ∧ (1 ≤ burst → b.tokens < s.inner.capacity) := h.take_put _ _ _

namespace Tracked

theorem empty (hinner : s.inner = .new burst perMinute) (hlog : s.log = []) : s.Tracked burst perMinute := by
  refine ⟨hinner ▸ .new, ?_, ?_, ?_, ?_⟩ <;> simp [hinner, hlog, RateLimiterInner.new]

/-- A key of the last hour has its bucket still after the pass. -/
theorem survives (h : s.Tracked burst perMinute) (hburst : 1 ≤ burst) {x : Taken} (hx : x ∈ s.log)
    {now : ℚ} (hclock : s.clock ≤ now) (hrecent : now - x.time < idleSecs) :
    ∃ b, (x.key, b) ∈ (s.inner.evict now).buckets ∧ x.time ≤ b.lastRefill := by
  obtain ⟨b, hb, hrefill⟩ := h.held hburst x hx ((sub_le_sub_right hclock _).trans_lt hrecent)
  refine ⟨b, RateLimiterInner.mem_evict_of_keeps hb ?_, hrefill⟩
  have hage : elapsed b.lastRefill now < idleSecs :=
    max_lt ((sub_le_sub_left hrefill _).trans_lt hrecent) (by norm_num [idleSecs])
  simp [RateLimiterInner.keeps, h.spent hburst _ hb, hage]

theorem taken (h : s.Tracked burst perMinute) (hclock : s.clock ≤ t.evictAt) (hnow : t.evictAt ≤ t.now) :
    (s.taken t).Tracked burst perMinute := by
  obtain ⟨b, hinner, hrefill, htokens, hspent⟩ := inner_taken h.sound (t := t)
  refine ⟨h.sound.take, ?_, ?_, ?_, ?_⟩
  · intro x hx
    rcases List.mem_cons.1 hx with rfl | hx
    · exact le_rfl
    · exact (h.past x hx).trans (hclock.trans hnow)
  · intro e he
    rw [hinner] at he
    rcases List.mem_cons.1 he with rfl | he
    · exact ⟨_, List.mem_cons_self .., rfl, hrefill.symm⟩
    · obtain ⟨x, hx, hkey⟩ := h.logged e (RateLimiterInner.mem_of_mem_evict (List.mem_filter.1 he).1)
      exact ⟨x, List.mem_cons_of_mem _ hx, hkey⟩
  · intro hburst e he
    rw [hinner] at he ⊢
    rw [RateLimiterInner.put_capacity, RateLimiterInner.evict_capacity]
    rcases List.mem_cons.1 he with rfl | he
    · exact hspent hburst
    · exact h.spent hburst e (RateLimiterInner.mem_of_mem_evict (List.mem_filter.1 he).1)
  · intro hburst x hx hrecent
    rw [hinner]
    by_cases hkey : x.key = t.key
    · refine ⟨b, hkey ▸ List.mem_cons_self .., ?_⟩
      rw [hrefill]
      rcases List.mem_cons.1 hx with rfl | hx
      · exact le_rfl
      · exact (h.past x hx).trans (hclock.trans hnow)
    · rcases List.mem_cons.1 hx with rfl | hx
      · exact absurd rfl hkey
      · obtain ⟨c, hc, hle⟩ := h.survives hburst hx hclock ((sub_le_sub_right hnow _).trans_lt hrecent)
        exact ⟨c, List.mem_cons_of_mem _ (List.mem_filter.2 ⟨hc, by simpa using hkey⟩), hle⟩

/-- The keys of the last hour all have buckets after a take. -/
theorem recentKeys_subset (h : s.Tracked burst perMinute) (hburst : 1 ≤ burst) (hclock : s.clock ≤ t.evictAt) :
    s.recentKeys t ⊆ (s.taken t).inner.buckets.map Prod.fst := by
  obtain ⟨b, hinner, -⟩ := inner_taken h.sound (t := t)
  intro key hkey
  rw [hinner]
  by_cases hown : key = t.key
  · exact List.mem_map.2 ⟨(t.key, b), List.mem_cons_self .., hown.symm⟩
  · rcases List.mem_cons.1 (List.mem_dedup.1 hkey) with hkey | hkey
    · exact absurd hkey hown
    · obtain ⟨x, hx, rfl⟩ := List.mem_map.1 hkey
      obtain ⟨hx, hrecent⟩ := List.mem_filter.1 hx
      obtain ⟨c, hc, -⟩ := h.survives hburst hx hclock (of_decide_eq_true hrecent)
      exact List.mem_map.2 ⟨_, List.mem_cons_of_mem _ (List.mem_filter.2 ⟨hc, by simpa using hown⟩), rfl⟩

/-- After a pass over a full map only keys of the last hour have buckets. -/
theorem subset_recentKeys (h : s.Tracked burst perMinute) (hfull : maxKeys ≤ s.inner.buckets.length) :
    (s.taken t).inner.buckets.map Prod.fst ⊆ s.recentKeys t := by
  obtain ⟨b, hinner, -⟩ := inner_taken h.sound (t := t)
  intro key hkey
  rw [hinner] at hkey
  obtain ⟨e, he, rfl⟩ := List.mem_map.1 hkey
  refine List.mem_dedup.2 ?_
  rcases List.mem_cons.1 he with rfl | he
  · exact List.mem_cons_self ..
  · have he := (List.mem_filter.1 he).1
    obtain ⟨x, hx, hkey, htime⟩ := h.logged e (RateLimiterInner.mem_of_mem_evict he)
    have hkept := RateLimiterInner.keeps_of_mem_evict hfull he
    refine List.mem_cons_of_mem _ (List.mem_map.2 ⟨x, List.mem_filter.2 ⟨hx, decide_eq_true ?_⟩, hkey⟩)
    rw [htime]
    exact (le_max_left _ _).trans_lt hkept.2

theorem length_taken_le (h : s.Tracked burst perMinute) (hroom : s.RoomFor t) :
    (s.taken t).inner.buckets.length ≤ maxKeys := by
  obtain ⟨b, hinner, -⟩ := inner_taken h.sound (t := t)
  have hput : (s.taken t).inner.buckets.length ≤ (s.inner.evict t.evictAt).buckets.length + 1 := by
    rw [hinner]
    exact RateLimiterInner.length_put_le
  by_cases hfull : maxKeys ≤ s.inner.buckets.length
  · rcases hroom with hempty | hroom
    · have hnone : (s.inner.evict t.evictAt).buckets = [] := by
        refine List.eq_nil_iff_forall_not_mem.2 fun e he => ?_
        have htokens := h.sound.tokens e (RateLimiterInner.mem_of_mem_evict he)
        have hspent := (RateLimiterInner.keeps_of_mem_evict hfull he).1
        rw [hempty] at hspent
        exact absurd hspent (not_lt.2 htokens)
      rw [hnone] at hput
      exact hput.trans (by simp [maxKeys])
    · have hkeys := (List.Nodup.subperm h.sound.take.keyed (h.subset_recentKeys (t := t) hfull)).length_le
      rw [List.length_map] at hkeys
      exact hkeys.trans hroom
  · have hsame : s.inner.evict t.evictAt = s.inner := if_neg hfull
    rw [hsame] at hput
    exact hput.trans (not_le.1 hfull)

theorem roomFor_of_length (h : s.Tracked burst perMinute) (hclock : s.clock ≤ t.evictAt)
    (hlength : (s.taken t).inner.buckets.length ≤ maxKeys) : s.RoomFor t := by
  rcases Nat.eq_zero_or_pos burst with hzero | hburst
  · exact .inl (by rw [h.sound.capacity, hzero, Nat.cast_zero])
  · have hkeys := (List.Nodup.subperm (List.nodup_dedup _) (h.recentKeys_subset hburst hclock)).length_le
    rw [List.length_map] at hkeys
    exact .inr (hkeys.trans hlength)

end Tracked

/-- As long as each take finds at most 65,536 keys in its last hour, the buckets stay under the cap, and a
take that finds more breaks it. -/
theorem length_le_iff_roomFor (h : (limiters burst perMinute).ReachableIf RoomFor s) :
    s.inner.buckets.length ≤ maxKeys ∧
      ∀ t s', s.next t = some s' → (s'.inner.buckets.length ≤ maxKeys ↔ s.RoomFor t) := by
  have hkept : s.Tracked burst perMinute ∧ s.inner.buckets.length ≤ maxKeys := by
    refine h.invariant (P := fun s => s.Tracked burst perMinute ∧ s.inner.buckets.length ≤ maxKeys) ?_ ?_
    · rintro s ⟨hinner, hlog⟩
      exact ⟨.empty hinner hlog, by simp [hinner, RateLimiterInner.new]⟩
    · intro s t s' _ hs hstep hroom
      obtain ⟨hclock, hnow, rfl⟩ := of_next hstep
      exact ⟨hs.1.taken hclock hnow, hs.1.length_taken_le hroom⟩
  refine ⟨hkept.2, fun t s' hnext => ?_⟩
  obtain ⟨hclock, -, rfl⟩ := of_next hnext
  exact ⟨hkept.1.roomFor_of_length hclock, hkept.1.length_taken_le⟩

end

/-- A take of an hour without other keys. -/
theorem length_le_iff_roomFor_alone : ∃ s, (limiters 2 60).ReachableIf RoomFor s ∧
    s.inner.buckets.map Prod.fst = ["a"] ∧ (s.inner.buckets.length ≤ maxKeys ∧
      ∀ t s', s.next t = some s' → (s'.inner.buckets.length ≤ maxKeys ↔ s.RoomFor t)) := by
  have hinit : (limiters 2 60).ReachableIf RoomFor ⟨.new 2 60, 0, []⟩ := .init ⟨rfl, rfl⟩
  have hroom : Limiter.RoomFor ⟨.new 2 60, 0, []⟩ ⟨"a", 0, 0⟩ := .inr (by decide)
  have hnext : Limiter.next ⟨.new 2 60, 0, []⟩ ⟨"a", 0, 0⟩ = some (taken ⟨.new 2 60, 0, []⟩ ⟨"a", 0, 0⟩) := rfl
  have hs := hinit.step hnext hroom
  exact ⟨_, hs, by decide +kernel, length_le_iff_roomFor hs⟩

/-! Keys that all come at one instant. -/

/-- Keys told apart by their lengths. -/
def numbered (n : Nat) : String := String.ofList (List.replicate n 'k')

theorem numbered_inj {m n : Nat} (h : numbered m = numbered n) : m = n := by
  have hlists : List.replicate m 'k' = List.replicate n 'k' := String.ofList_injective h
  simpa using congrArg List.length hlists

/-- Every bucket is of the last instant, less than full, and of a key with a smaller number. -/
structure Crowded (burst perMinute n : Nat) (s : Limiter) : Prop where
  sound : s.inner.Sound burst perMinute
  fresh : ∀ e ∈ s.inner.buckets, e.2.tokens < s.inner.capacity ∧ e.2.lastRefill = s.clock
  keys : ∀ e ∈ s.inner.buckets, ∃ i < n, e.1 = numbered i

namespace Crowded
variable {burst perMinute n : Nat} {s : Limiter}

/-- The pass finds nothing to drop. -/
theorem evict (h : s.Crowded burst perMinute n) : s.inner.evict s.clock = s.inner := by
  unfold RateLimiterInner.evict
  split
  · have hkeeps : s.inner.buckets.filter (fun e => s.inner.keeps s.clock e.2) = s.inner.buckets := by
      refine List.filter_eq_self.2 fun e he => ?_
      obtain ⟨htokens, hrefill⟩ := h.fresh e he
      simp [RateLimiterInner.keeps, htokens, hrefill, elapsed, idleSecs]
    rw [hkeeps]
  · rfl

theorem taken (h : s.Crowded burst perMinute n) (hburst : 1 ≤ burst) :
    (s.taken ⟨numbered n, s.clock, s.clock⟩).Crowded burst perMinute (n + 1) ∧
      (s.taken ⟨numbered n, s.clock, s.clock⟩).inner.buckets.length = s.inner.buckets.length + 1 := by
  obtain ⟨b, hinner, hrefill, -, hspent⟩ := inner_taken h.sound (t := ⟨numbered n, s.clock, s.clock⟩)
  rw [h.evict] at hinner
  have hnew : s.inner.buckets.filter (·.1 != numbered n) = s.inner.buckets := by
    refine List.filter_eq_self.2 fun e he => ?_
    obtain ⟨i, hi, hkey⟩ := h.keys e he
    simpa [hkey] using fun heq => absurd (numbered_inj heq) (Nat.ne_of_lt hi)
  have hbuckets : (s.taken ⟨numbered n, s.clock, s.clock⟩).inner.buckets = (numbered n, b) :: s.inner.buckets := by
    rw [hinner, RateLimiterInner.put, hnew]
  refine ⟨⟨h.sound.take, ?_, ?_⟩, by rw [hbuckets, List.length_cons]⟩
  · rw [hbuckets, hinner]
    refine List.forall_mem_cons.2 ⟨⟨hspent hburst, hrefill⟩, h.fresh⟩
  · rw [hbuckets]
    refine List.forall_mem_cons.2 ⟨⟨n, Nat.lt_succ_self n, rfl⟩, fun e he => ?_⟩
    obtain ⟨i, hi, hkey⟩ := h.keys e he
    exact ⟨i, Nat.lt_succ_of_lt hi, hkey⟩

/-- A flood of new keys leaves a bucket for each of them. -/
theorem flooded (h : s.Crowded burst perMinute n) (hburst : 1 ≤ burst) (m : Nat) :
    ∃ s', (limiters burst perMinute).Run s s' ∧ s'.Crowded burst perMinute (n + m) ∧ s'.clock = s.clock ∧
      s'.inner.buckets.length = s.inner.buckets.length + m ∧
      ∃ flood, s'.log = flood ++ s.log ∧ ∀ x ∈ flood, ∃ i, n ≤ i ∧ x.key = numbered i := by
  induction m with
  | zero => exact ⟨s, .refl, h, rfl, rfl, [], rfl, by simp⟩
  | succ m ih =>
    obtain ⟨s', hrun, hcrowded, hclock, hlength, flood, hlog, hflood⟩ := ih
    obtain ⟨hnext, hgrows⟩ := hcrowded.taken hburst
    have hstep : s'.next ⟨numbered (n + m), s'.clock, s'.clock⟩ =
        some (s'.taken ⟨numbered (n + m), s'.clock, s'.clock⟩) := if_pos ⟨le_rfl, le_rfl⟩
    refine ⟨_, hrun.step hstep trivial, hnext, hclock, ?_, _ :: flood,
      by rw [Limiter.taken, hlog, List.cons_append], ?_⟩
    · rw [hgrows, hlength, Nat.add_assoc]
    · exact List.forall_mem_cons.2 ⟨⟨n + m, Nat.le_add_right n m, rfl⟩, hflood⟩

end Crowded

/-- One key more than the cap within an hour, and no bucket goes. -/
theorem flood_breaks_cap : ∃ s, (limiters 1 60).Reachable s ∧ s.inner.buckets.length = maxKeys + 1 := by
  have hinit : (limiters 1 60).Reachable ⟨.new 1 60, 0, []⟩ := .init ⟨rfl, rfl⟩
  have hempty : Limiter.Crowded 1 60 0 ⟨.new 1 60, 0, []⟩ := by
    refine ⟨.new, ?_, ?_⟩ <;> simp [RateLimiterInner.new]
  obtain ⟨s, hrun, -, -, hlength, -⟩ := hempty.flooded (Nat.le_refl 1) (maxKeys + 1)
  exact ⟨s, hrun.reachable hinit, by simpa [RateLimiterInner.new] using hlength⟩

end Limiter
end Fusions.Web
