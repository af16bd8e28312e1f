import Mathlib.Data.List.Nodup
import Fusions.Hetuflow.Service.Worker

/-! The lease protocol of the outbox: a record is settled as succeeded at most once, whoever delivers it. -/
namespace Fusions.Hetuflow
open Fusions.Library

/-- How many of the settlements are of the record and of a kind. -/
def settledCount (settled : List (Uuid × Settlement)) (p : Settlement → Bool) (id : Uuid) : Nat :=
  settled.countP fun x => x.1 == id && p x.2

/-- Another worker has leased the record of the claim since. -/
def Dispatch.TakenOver (s : Dispatch) (workerId : String) (c : Claim) : Prop :=
  ∃ x ∈ s.leases.drop c.since, x.1 = c.record.id ∧ x.2 ≠ workerId

/-- What a row says of its settlements. -/
structure OutboxRecord.Accounts (settled : List (Uuid × Settlement)) (r : OutboxRecord) : Prop where
  owned : r.leaseOwner.isSome = true → r.status = .leased
  successes : settledCount settled Settlement.isSuccess r.id = if r.status = .succeeded then 1 else 0
  deaths : settledCount settled Settlement.isDeath r.id = if r.status = .deadLetter then 1 else 0
  failures : r.attemptCount = settledCount settled Settlement.isFailure r.id
  bound : r.attemptCount ≤ max r.maxAttempts 1
  open_bound : r.status = .pending ∨ r.status = .leased → r.attemptCount < max r.maxAttempts 1

/-- What a worker knows of the record of a claim: unless someone has leased it since, the row is as it was. -/
structure Claim.Covers (leases : List (Uuid × String)) (workerId : String) (c : Claim) (r : OutboxRecord) : Prop where
  id : r.id = c.record.id
  maxAttempts : r.maxAttempts = c.record.maxAttempts
  unchanged : r.leaseOwner = some workerId → r.attemptCount = c.record.attemptCount ∧
    ∀ x ∈ leases.drop c.since, x.1 ≠ r.id

/-- The state of the outbox and its dispatchers between two steps. -/
structure Dispatch.Sound (config : String → WorkerConfig) (s : Dispatch) : Prop where
  ids_nodup : (s.rows.map OutboxRecord.id).Nodup
  settled : ∀ x ∈ s.settled, ∃ r ∈ s.rows, r.id = x.1
  rows : ∀ r ∈ s.rows, r.Accounts s.settled
  claims : ∀ workerId, ∀ c ∈ (s.workers workerId).batch, c.since ≤ s.leases.length ∧
    (∀ x ∈ s.leases.drop c.since, x.2 ≠ workerId) ∧ ∃ r ∈ s.rows, c.Covers s.leases workerId r
  settling : ∀ workerId began settlement, (s.workers workerId).settling = some (began, settlement) →
    ∃ c rest answer, (s.workers workerId).batch = c :: rest ∧
      settlement = settle (config workerId) c.record answer ∧
      ∃ r ∈ s.rows, r.isHeldBy c.record.id workerId = true

section
variable {config : String → WorkerConfig} {s s' : Dispatch} {r : OutboxRecord} {workerId : String}

theorem OutboxRecord.isHeldBy_iff {id : Uuid} :
    r.isHeldBy id workerId = true ↔ r.id = id ∧ r.leaseOwner = some workerId ∧ r.status = .leased := by
  simp [isHeldBy, and_assoc]

/-- The update of a settlement, row by row. -/
def Settlement.update (now : Time) : Settlement → OutboxRecord → OutboxRecord
  | .succeeded _ => OutboxRecord.succeed
  | .retry backoffSecs lastError => OutboxRecord.retry (now + backoffSecs) lastError
  | .deadLetter lastError _ => OutboxRecord.deadLetter lastError

theorem Settlement.mark_eq (settlement : Settlement) (now : Time) (id : Uuid) (rows : List OutboxRecord) :
    settlement.mark now id workerId rows = markOutbox (settlement.update now) id workerId rows := by
  cases settlement <;> rfl

theorem Settlement.update_fixed (settlement : Settlement) (now : Time) (r : OutboxRecord) :
    (settlement.update now r).id = r.id ∧ (settlement.update now r).maxAttempts = r.maxAttempts ∧
      (settlement.update now r).leaseOwner = none := by
  cases settlement <;> exact ⟨rfl, rfl, rfl⟩

private theorem Sound.unique (h : s.Sound config) {x y : OutboxRecord} (hx : x ∈ s.rows) (hy : y ∈ s.rows)
    (hid : x.id = y.id) : x = y :=
  List.inj_on_of_nodup_map h.ids_nodup hx hy hid

private theorem settledCount_append (settled : List (Uuid × Settlement)) (p : Settlement → Bool) (id : Uuid)
    (x : Uuid × Settlement) :
    settledCount (settled ++ [x]) p id = settledCount settled p id + if x.1 = id ∧ p x.2 = true then 1 else 0 := by
  simp [settledCount, List.countP_append, List.countP_cons]

/-- The bookkeeping of the rows that a settlement is not about. -/
private theorem accounts_of_other {settled : List (Uuid × Settlement)} {x : Uuid × Settlement} (hr : r.Accounts settled)
    (hne : x.1 ≠ r.id) : r.Accounts (settled ++ [x]) := by
  have hcount : ∀ p, settledCount (settled ++ [x]) p r.id = settledCount settled p r.id := by
    intro p
    rw [settledCount_append, if_neg fun hboth => hne hboth.1, Nat.add_zero]
  exact ⟨hr.owned, (hcount _).trans hr.successes, (hcount _).trans hr.deaths,
    hr.failures.trans (congrArg Nat.cast (hcount _)).symm, hr.bound, hr.open_bound⟩

/-- The bookkeeping of a settlement that its worker commits. -/
private theorem accounts_of_commit {settled : List (Uuid × Settlement)} {answer : Except CallbackError Unit} {c : Claim}
    (began : Time) (hr : r.Accounts settled) (hheld : r.status = .leased)
    (hmax : r.maxAttempts = c.record.maxAttempts) (hattempt : r.attemptCount = c.record.attemptCount)
    (hid : r.id = c.record.id) :
    let settlement := settle (config workerId) c.record answer
    (settlement.update began r).Accounts (settled ++ [(c.record.id, settlement)]) := by
  intro settlement
  have hsuccesses := hr.successes
  have hdeaths := hr.deaths
  have hfailures := hr.failures
  have hbound := hr.open_bound (.inr hheld)
  simp only [hheld, reduceCtorEq, ↓reduceIte] at hsuccesses hdeaths
  have hcount : ∀ p : Settlement → Bool, settledCount (settled ++ [(c.record.id, settlement)]) p r.id =
      settledCount settled p r.id + if p settlement = true then 1 else 0 := by
    intro p
    rw [settledCount_append]
    simp [hid]
  cases answer with
  | ok u =>
    refine ⟨nofun, ?_, ?_, ?_, hr.bound, by rintro (h | h) <;> cases h⟩
    · rw [show (settlement.update began r).id = r.id from rfl, hcount, hsuccesses]
      rfl
    · rw [show (settlement.update began r).id = r.id from rfl, hcount, hdeaths]
      rfl
    · rw [show (settlement.update began r).id = r.id from rfl, hcount]
      exact hfailures
  | error e =>
    have hfailure : settlement.isFailure = true := by
      simp only [settlement, settle, settleFailure]
      split <;> rfl
    have hnext : r.attemptCount + 1 =
        settledCount (settled ++ [(c.record.id, settlement)]) Settlement.isFailure r.id := by
      rw [hcount, if_pos hfailure, hfailures]
      rfl
    have hwithin : r.attemptCount + 1 ≤ max r.maxAttempts 1 := by omega
    by_cases hdead : e.kind = .deterministic ∨ c.record.attemptCount + 1 ≥ c.record.maxAttempts
    · have hsettlement : settlement = .deadLetter e.message
          (.onOutboxDeadLetter c.record.activityInstanceId c.record.activityType e.message) := by
        simp only [settlement, settle, settleFailure]
        rw [if_pos hdead]
      rw [hsettlement] at hcount hnext ⊢
      refine ⟨nofun, ?_, ?_, hnext, hwithin, by rintro (h | h) <;> cases h⟩
      · exact (hcount _).trans hsuccesses
      · exact (hcount _).trans (by rw [hdeaths]; rfl)
    · have hsettlement : settlement = .retry (asI32 (retryBackoffSecs c.record.attemptCount
          (config workerId).retryBaseSecs (config workerId).retryCapSecs)) e.message := by
        simp only [settlement, settle, settleFailure]
        rw [if_neg hdead]
      rw [hsettlement] at hcount hnext ⊢
      rw [not_or] at hdead
      refine ⟨nofun, ?_, ?_, hnext, hwithin, fun _ => ?_⟩
      · exact (hcount _).trans hsuccesses
      · exact (hcount _).trans hdeaths
      · show r.attemptCount + 1 < max r.maxAttempts 1
        have := hdead.2
        omega

/-- A worker that goes on with claims it has. -/
private theorem sound_setWorker (h : s.Sound config) {worker : Worker}
    (hbatch : ∀ c ∈ worker.batch, c ∈ (s.workers workerId).batch)
    (hsettling : ∀ began settlement, worker.settling = some (began, settlement) → ∃ c rest answer,
      worker.batch = c :: rest ∧ settlement = settle (config workerId) c.record answer ∧
        ∃ r ∈ s.rows, r.isHeldBy c.record.id workerId = true) :
    (s.setWorker workerId worker).Sound config := by
  refine ⟨h.ids_nodup, h.settled, h.rows, fun v c hc => ?_, fun v began settlement hs => ?_⟩
  · simp only [Dispatch.setWorker] at hc
    split at hc
    · next hv => exact h.claims v c (by rw [hv]; exact hbatch c hc)
    · exact h.claims v c hc
  · simp only [Dispatch.setWorker] at hs ⊢
    split at hs
    · next hv =>
      simp only [hv, ↓reduceIte]
      exact hsettling began settlement hs
    · next hv =>
      simp only [hv, ↓reduceIte]
      exact h.settling v began settlement hs

private theorem sound_enqueue (h : s.Sound config) (hfresh : ∀ x ∈ s.rows, x.id ≠ r.id)
    (hpending : r.status = .pending) (howner : r.leaseOwner = none) (hattempt : r.attemptCount = 0) :
    Dispatch.Sound config { s with rows := s.rows ++ [r] } := by
  have hzero : ∀ p, settledCount s.settled p r.id = 0 := by
    intro p
    refine List.countP_eq_zero.2 fun x hx hpx => ?_
    obtain ⟨y, hy, hid⟩ := h.settled x hx
    simp only [Bool.and_eq_true, beq_iff_eq] at hpx
    exact hfresh y hy (hid.trans hpx.1)
  refine ⟨?_, fun x hx => ?_, fun y hy => ?_, fun v c hc => ?_, fun v began settlement hs => ?_⟩
  · rw [List.map_append, List.nodup_append]
    refine ⟨h.ids_nodup, by simp, fun a ha b hb => ?_⟩
    obtain ⟨y, hy, rfl⟩ := List.mem_map.1 ha
    rw [List.map_singleton, List.mem_singleton] at hb
    rw [hb]
    exact hfresh y hy
  · obtain ⟨y, hy, hid⟩ := h.settled x hx
    exact ⟨y, List.mem_append_left _ hy, hid⟩
  · rcases List.mem_append.1 hy with hy | hy
    · exact h.rows y hy
    · rw [List.mem_singleton.1 hy]
      refine ⟨by simp [howner], ?_, ?_, ?_, ?_, fun _ => ?_⟩
      · rw [hzero, hpending]
        rfl
      · rw [hzero, hpending]
        rfl
      · rw [hzero, hattempt]
        rfl
      · omega
      · omega
  · obtain ⟨hsince, hothers, y, hy, hcovers⟩ := h.claims v c hc
    exact ⟨hsince, hothers, y, List.mem_append_left _ hy, hcovers⟩
  · obtain ⟨c, rest, answer, hbatch, hsettlement, y, hy, hheld⟩ := h.settling v began settlement hs
    exact ⟨c, rest, answer, hbatch, hsettlement, y, List.mem_append_left _ hy, hheld⟩

private theorem OutboxRecord.Accounts.lease {settled : List (Uuid × Settlement)} (h : r.Accounts settled)
    (hdue : r.isDue s.now = true) (workerId : String) (expiresAt : Time) :
    (r.lease workerId expiresAt).Accounts settled := by
  have hopen : r.status = .pending ∨ r.status = .leased := by
    simp only [isDue, Bool.and_eq_true, Bool.or_eq_true, beq_iff_eq] at hdue
    exact hdue.2.imp_right fun hleased => hleased.1
  have hsuccesses := h.successes
  have hdeaths := h.deaths
  refine ⟨fun _ => rfl, ?_, ?_, h.failures, h.bound, fun _ => h.open_bound hopen⟩
  · rcases hopen with hs | hs <;> rw [hs] at hsuccesses <;> exact hsuccesses
  · rcases hopen with hs | hs <;> rw [hs] at hdeaths <;> exact hdeaths

private theorem sound_poll (h : s.Sound config) (leaseTtlSecs : Int) {limit : Nat} {picked : List OutboxRecord}
    (hpicks : s.Picks limit picked) : (s.pollDueOutbox workerId leaseTtlSecs picked).Sound config := by
  have hsame : ∀ {x y : OutboxRecord}, x ∈ s.rows → y ∈ picked → x.id = y.id → x = y :=
    fun hx hy hid => Sound.unique h hx (hpicks.due _ hy).1 hid
  have hrows : ∀ {x : OutboxRecord}, x ∈ s.rows → (if x ∈ picked then x.lease workerId (s.now + leaseTtlSecs) else x) ∈
      (s.pollDueOutbox workerId leaseTtlSecs picked).rows := fun hx => List.mem_map_of_mem hx
  refine ⟨?_, fun x hx => ?_, fun y hy => ?_, fun v c hc => ?_, fun v began settlement hs => ?_⟩
  · have : (s.pollDueOutbox workerId leaseTtlSecs picked).rows.map OutboxRecord.id = s.rows.map OutboxRecord.id := by
      apply map_updateWhere
      exact fun _ => rfl
    rw [this]
    exact h.ids_nodup
  · obtain ⟨y, hy, hid⟩ := h.settled x hx
    refine ⟨_, hrows hy, ?_⟩
    split <;> exact hid
  · obtain ⟨x, hx, rfl⟩ := List.mem_map.1 hy
    split
    · next hpicked => exact (h.rows x hx).lease (hpicks.due x hpicked).2.1 ..
    · exact h.rows x hx
  · simp only [Dispatch.pollDueOutbox, Dispatch.setWorker] at hc ⊢
    split at hc
    · next hv =>
      obtain ⟨x, hx, rfl⟩ := List.mem_map.1 hc
      rw [List.drop_length]
      refine ⟨Nat.le_refl _, nofun, _, hrows (hpicks.due x hx).1, ?_⟩
      rw [if_pos hx]
      exact ⟨rfl, rfl, fun _ => ⟨rfl, by rw [List.drop_length]; nofun⟩⟩
    · next hv =>
      obtain ⟨hsince, hothers, x, hx, hcovers⟩ := h.claims v c hc
      rw [List.drop_append_of_le_length hsince]
      refine ⟨by rw [List.length_append]; omega, ?_, _, hrows hx, ?_⟩
      · refine List.forall_mem_append.2 ⟨hothers, fun y hy => ?_⟩
        obtain ⟨z, -, rfl⟩ := List.mem_map.1 hy
        exact fun heq => hv heq.symm
      · split
        · exact ⟨hcovers.id, hcovers.maxAttempts, fun howner => absurd (Option.some.inj howner).symm hv⟩
        · next hunpicked =>
          refine ⟨hcovers.id, hcovers.maxAttempts, fun howner => ?_⟩
          obtain ⟨hattempt, hnone⟩ := hcovers.unchanged howner
          rw [List.drop_append_of_le_length hsince]
          refine ⟨hattempt, List.forall_mem_append.2 ⟨hnone, fun y hy => ?_⟩⟩
          obtain ⟨z, hz, rfl⟩ := List.mem_map.1 hy
          exact fun heq => hunpicked (by rw [hsame hx hz heq.symm]; exact hz)
  · simp only [Dispatch.pollDueOutbox, Dispatch.setWorker] at hs ⊢
    split at hs
    · cases hs
    · next hv =>
      obtain ⟨c, rest, answer, hbatch, hsettlement, x, hx, hheld⟩ := h.settling v began settlement hs
      refine ⟨c, rest, answer, by simpa [hv] using hbatch, hsettlement, _, hrows hx, ?_⟩
      rw [if_neg]
      · exact hheld
      · intro hpicked
        refine (hpicks.due x hpicked).2.2 ⟨v, c, rest, hbatch, ?_, by rw [hs]; rfl⟩
        exact (OutboxRecord.isHeldBy_iff.1 hheld).1.symm

private theorem sound_commit (h : s.Sound config) {c : Claim} {rest : List Claim} {began : Time}
    {settlement : Settlement} (hbatch : (s.workers workerId).batch = c :: rest)
    (hsettling : (s.workers workerId).settling = some (began, settlement)) :
    Dispatch.Sound config
      { s.setWorker workerId ⟨rest, none, none⟩ with
        rows := (settlement.mark began c.record.id workerId s.rows).2
        settled := s.settled ++ [(c.record.id, settlement)] } := by
  obtain ⟨c', rest', answer, hbatch', rfl, held, hmem, hheld⟩ := h.settling workerId began settlement hsettling
  obtain ⟨rfl, rfl⟩ := List.cons.inj (hbatch.symm.trans hbatch')
  have hkeep : ∀ x : OutboxRecord, x.isHeldBy c.record.id workerId = false ∨ x.isHeldBy c.record.id workerId = true :=
    fun x => by cases x.isHeldBy c.record.id workerId <;> simp
  rw [Settlement.mark_eq]
  generalize hsettlement : settle (config workerId) c.record answer = settlement at hsettling
  have hfixed := settlement.update_fixed began
  have hrows : ∀ {x : OutboxRecord}, x ∈ s.rows →
      (if x.isHeldBy c.record.id workerId then settlement.update began x else x) ∈
        (markOutbox (settlement.update began) c.record.id workerId s.rows).2 := fun hx => List.mem_map_of_mem hx
  refine ⟨?_, fun x hx => ?_, fun y hy => ?_, fun v d hd => ?_, fun v began' settlement' hs => ?_⟩
  · have : (markOutbox (settlement.update began) c.record.id workerId s.rows).2.map OutboxRecord.id =
        s.rows.map OutboxRecord.id := map_updateWhere (fun x => (hfixed x).1) s.rows
    rw [this]
    exact h.ids_nodup
  · have hid : ∃ y ∈ s.rows, y.id = x.1 := by
      rcases List.mem_append.1 hx with hx | hx
      · exact h.settled x hx
      · rw [List.mem_singleton.1 hx]
        exact ⟨held, hmem, (OutboxRecord.isHeldBy_iff.1 hheld).1⟩
    obtain ⟨y, hy, hid⟩ := hid
    refine ⟨_, hrows hy, ?_⟩
    split
    · exact (hfixed y).1.trans hid
    · exact hid
  · obtain ⟨x, hx, rfl⟩ := List.mem_map.1 hy
    rcases hkeep x with hnot | hhold
    · have hne : x.id ≠ c.record.id := by
        intro heq
        rw [Sound.unique h hx hmem (heq.trans (OutboxRecord.isHeldBy_iff.1 hheld).1.symm), hheld] at hnot
        cases hnot
      simp only [hnot, Bool.false_eq_true, ↓reduceIte]
      exact accounts_of_other (h.rows x hx) (Ne.symm hne)
    · obtain ⟨hid, howner, hleased⟩ := OutboxRecord.isHeldBy_iff.1 hhold
      obtain ⟨-, -, z, hz, hcovers⟩ := h.claims workerId c (by rw [hbatch]; exact List.mem_cons_self ..)
      obtain rfl := Sound.unique h hx hz (hid.trans hcovers.id.symm)
      simp only [hhold, ↓reduceIte]
      rw [← hsettlement]
      exact accounts_of_commit began (h.rows x hx) hleased hcovers.maxAttempts (hcovers.unchanged howner).1 hid
  · have hold : d ∈ (s.workers v).batch := by
      simp only [Dispatch.setWorker] at hd
      split at hd
      · next hv =>
        rw [hv, hbatch]
        exact List.mem_cons_of_mem _ hd
      · exact hd
    obtain ⟨hsince, hothers, x, hx, hcovers⟩ := h.claims v d hold
    refine ⟨hsince, hothers, _, hrows hx, ?_⟩
    split
    · exact ⟨(hfixed x).1.trans hcovers.id, (hfixed x).2.1.trans hcovers.maxAttempts,
        fun howner => absurd ((hfixed x).2.2.symm.trans howner) (by simp)⟩
    · exact hcovers
  · simp only [Dispatch.setWorker] at hs ⊢
    split at hs
    · cases hs
    · next hv =>
      obtain ⟨d, drest, danswer, hdbatch, hdsettlement, x, hx, hdheld⟩ := h.settling v began' settlement' hs
      refine ⟨d, drest, danswer, by simpa [hv] using hdbatch, hdsettlement, _, hrows hx, ?_⟩
      rw [if_neg]
      · exact hdheld
      · intro hhold
        have howner := (OutboxRecord.isHeldBy_iff.1 hhold).2.1
        rw [(OutboxRecord.isHeldBy_iff.1 hdheld).2.1] at howner
        exact hv (Option.some.inj howner)

private theorem sound_step (h : s.Sound config) {a : Action} (hstep : Dispatch.Step config s a s') :
    s'.Sound config := by
  cases hstep with
  | tick => exact ⟨h.ids_nodup, h.settled, h.rows, h.claims, h.settling⟩
  | enqueue hfresh hpending howner hattempt => exact sound_enqueue h hfresh hpending howner hattempt
  | poll _ hpicks => exact sound_poll h _ hpicks
  | deliver _ _ => exact sound_setWorker h (fun _ hc => hc) (h.settling _)
  | @mark workerId c rest answer settlement hbatch _ _ _ hsettlement hhit =>
    refine sound_setWorker h (fun _ hc => hc) fun began settlement' heq => ?_
    obtain ⟨-, rfl⟩ := Prod.mk.inj (Option.some.inj heq)
    rw [Settlement.mark_eq] at hhit
    obtain ⟨r, hr, hheld⟩ := List.any_eq_true.1 hhit
    exact ⟨c, rest, answer, hbatch, hsettlement, r, hr, hheld⟩
  | miss hbatch _ _ _ _ =>
    refine sound_setWorker h (fun c hc => ?_) fun _ _ heq => by cases heq
    rw [hbatch]
    exact List.mem_cons_of_mem _ hc
  | commit hbatch hsettling => exact sound_commit h hbatch hsettling
  | giveUp => exact sound_setWorker h (fun _ hc => by cases hc) fun _ _ heq => by cases heq

theorem sound_of_reachable (h : (dispatchers config).Reachable s) : s.Sound config := by
  refine h.invariant (P := Dispatch.Sound config) ?_ fun _ _ _ _ hs hstep _ => sound_step hs hstep
  rintro s ⟨hrows, hworkers, hleases, hsettled⟩
  refine ⟨by simp [hrows], by simp [hsettled], by simp [hrows], fun w c hc => ?_, fun w began settlement hs => ?_⟩
  · rw [hworkers] at hc
    cases hc
  · rw [hworkers] at hs
    cases hs

/-- A record that is succeeded or dead stays as it is. -/
private theorem final_step {a : Action} (hstep : Dispatch.Step config s a s') (hr : r ∈ s.rows)
    (hfinal : r.status = .succeeded ∨ r.status = .deadLetter) : r ∈ s'.rows := by
  cases hstep with
  | tick | deliver | mark | miss | giveUp => exact hr
  | enqueue => exact List.mem_append_left _ hr
  | @poll workerId picked _ hpicks =>
    refine List.mem_map.2 ⟨r, hr, if_neg fun hpicked => ?_⟩
    have hdue := (hpicks.due r hpicked).2.1
    rcases hfinal with hs | hs <;> simp [OutboxRecord.isDue, hs] at hdue
  | commit _ _ =>
    rw [Settlement.mark_eq]
    refine List.mem_map.2 ⟨r, hr, if_neg fun hheld => ?_⟩
    have hleased := (OutboxRecord.isHeldBy_iff.1 hheld).2.2
    rcases hfinal with hs | hs <;> rw [hs] at hleased <;> cases hleased

/-- A claim that another worker has taken over settles nothing. -/
private theorem miss_of_takenOver (h : s.Sound config) {c : Claim} {rest : List Claim}
    (hbatch : (s.workers workerId).batch = c :: rest) (htaken : s.TakenOver workerId c)
    (hstep : Dispatch.Step config s (.mark workerId) s') :
    s'.rows = s.rows ∧ s'.settled = s.settled ∧ (s'.workers workerId).settling = none := by
  cases hstep with
  | @mark _ c' _ _ _ hbatch' _ _ _ _ hhit =>
    obtain ⟨rfl, -⟩ := List.cons.inj (hbatch.symm.trans hbatch')
    rw [Settlement.mark_eq] at hhit
    obtain ⟨r, hr, hheld⟩ := List.any_eq_true.1 hhit
    obtain ⟨hid, howner, -⟩ := OutboxRecord.isHeldBy_iff.1 hheld
    obtain ⟨-, -, x, hx, hcovers⟩ := h.claims workerId c (by rw [hbatch]; exact List.mem_cons_self ..)
    obtain rfl := Sound.unique h hr hx (hid.trans hcovers.id.symm)
    obtain ⟨y, hy, hyid, -⟩ := htaken
    exact absurd (hyid.trans hid.symm) ((hcovers.unchanged howner).2 y hy)
  | miss => exact ⟨rfl, rfl, by simp [Dispatch.setWorker]⟩

/-- In every run of the dispatchers a record is settled as succeeded at most once, with at most one
follow-up, and then never as dead; its attempts are its settled failures and stay within the budget; once
succeeded or dead it does not change; and a worker whose lease was taken over settles nothing. -/
theorem outbox_leases (h : (dispatchers config).Reachable s) :
    (∀ id, settledCount s.settled Settlement.isSuccess id ≤ 1 ∧ settledCount s.settled Settlement.hasFollowUp id ≤ 1 ∧
      settledCount s.settled Settlement.isSuccess id + settledCount s.settled Settlement.isDeath id ≤ 1) ∧
    (∀ r ∈ s.rows, r.attemptCount = settledCount s.settled Settlement.isFailure r.id ∧
      r.attemptCount ≤ max r.maxAttempts 1) ∧
    (∀ r ∈ s.rows, r.status = .succeeded ∨ r.status = .deadLetter → ∀ t, (dispatchers config).Run s t →
      ∀ x ∈ t.rows, x.id = r.id → x = r) ∧
    (∀ workerId c rest t, (s.workers workerId).batch = c :: rest → s.TakenOver workerId c →
      Dispatch.Step config s (.mark workerId) t →
      t.rows = s.rows ∧ t.settled = s.settled ∧ (t.workers workerId).settling = none) := by
  have hs := sound_of_reachable h
  have hfollow : ∀ id,
      settledCount s.settled Settlement.hasFollowUp id ≤ settledCount s.settled Settlement.isSuccess id := by
    refine fun id => List.countP_mono_left fun x _ hx => ?_
    simp only [Bool.and_eq_true] at hx ⊢
    refine ⟨hx.1, ?_⟩
    cases hsettlement : x.2 <;> simp_all [Settlement.hasFollowUp, Settlement.isSuccess]
  refine ⟨fun id => ?_, fun r hr => ⟨(hs.rows r hr).failures, (hs.rows r hr).bound⟩, fun r hr hfinal t hrun => ?_,
    fun workerId c rest t hbatch htaken hstep => miss_of_takenOver hs hbatch htaken hstep⟩
  · suffices hcounts : settledCount s.settled Settlement.isSuccess id ≤ 1 ∧
        settledCount s.settled Settlement.isSuccess id + settledCount s.settled Settlement.isDeath id ≤ 1 from
      ⟨hcounts.1, Nat.le_trans (hfollow id) hcounts.1, hcounts.2⟩
    by_cases hrow : ∃ r ∈ s.rows, r.id = id
    · obtain ⟨r, hr, rfl⟩ := hrow
      rw [(hs.rows r hr).successes, (hs.rows r hr).deaths]
      cases r.status <;> simp
    · have hnone : ∀ p, settledCount s.settled p id = 0 := by
        refine fun p => List.countP_eq_zero.2 fun x hx hpx => hrow ?_
        obtain ⟨y, hy, hid⟩ := hs.settled x hx
        simp only [Bool.and_eq_true, beq_iff_eq] at hpx
        exact ⟨y, hy, hid.trans hpx.1⟩
      rw [hnone, hnone]
      simp
  · have hkept : r ∈ t.rows :=
      hrun.invariant h hr fun _ _ _ _ hmem hstep _ => final_step hstep hmem hfinal
    exact fun x hx hid => Sound.unique (sound_of_reachable (hrun.reachable h)) hx hkept hid

end

private theorem setWorker_of_ne {s : Dispatch} {worker : Worker} {workerId other : String} (h : other ≠ workerId) :
    (s.setWorker workerId worker).workers other = s.workers other := if_neg h

/-- No transaction is settling when the one worker that may have one is set to a state without. -/
private theorem free_setWorker {s : Dispatch} {worker : Worker} {workerId : String}
    (h : ∀ other, other ≠ workerId → (s.workers other).settling = none) (hworker : worker.settling = none) :
    ∀ other, ((s.setWorker workerId worker).workers other).settling = none := by
  intro other
  by_cases hother : other = workerId
  · rw [hother, Dispatch.setWorker]
    simpa using hworker
  · rw [setWorker_of_ne hother]
    exact h other hother

private theorem not_locked {s : Dispatch} (h : ∀ workerId, (s.workers workerId).settling = none) (id : Uuid) :
    ¬ s.Locked id := by
  rintro ⟨workerId, c, rest, -, -, hsettling⟩
  rw [h] at hsettling
  cases hsettling

private theorem picks_all {s : Dispatch} {limit : Nat} (h : ∀ workerId, (s.workers workerId).settling = none)
    (hdue : ∀ r ∈ s.rows, r.isDue s.now = true) (hnodup : s.rows.Nodup) (hlimit : s.rows.length ≤ limit) :
    s.Picks limit s.rows :=
  ⟨hnodup, fun r hr => ⟨hr, hdue r hr, not_locked h r.id⟩, hlimit, fun _ hr _ _ hnot => absurd hr hnot⟩

/-- Worker `w1` leases a record and delivers it late: `w2` has taken it over, delivered and settled it, when
`w1` comes to settle. -/
theorem outbox_leases_late :
    let id := "00000000-0000-4000-8000-00000000c001"
    ∃ s t : Dispatch, (dispatchers fun _ => ⟨60, 32, 10, 300⟩).Reachable s ∧
      s.leases = [(id, "w1"), (id, "w2")] ∧ settledCount s.settled Settlement.isSuccess id = 1 ∧
      Dispatch.Step (fun _ => ⟨60, 32, 10, 300⟩) s (.mark "w1") t ∧ t.rows = s.rows ∧ t.settled = s.settled := by
  intro id
  let record : OutboxRecord := ⟨id, "00000000-0000-4000-8000-00000000a001", "00000000-0000-4000-8000-00000000b001",
    "notification", .pending, none, none, 0, 5, 0, none⟩
  let config : String → WorkerConfig := fun _ => ⟨60, 32, 10, 300⟩
  let s₀ : Dispatch := ⟨0, [], fun _ => .idle, [], []⟩
  have h₀ : (dispatchers config).Reachable s₀ := .init ⟨rfl, fun _ => rfl, rfl, rfl⟩
  let s₁ : Dispatch := { s₀ with rows := s₀.rows ++ [record] }
  have h₁ : (dispatchers config).Reachable s₁ :=
    h₀.step (Dispatch.Step.enqueue (r := record) (fun _ hr => absurd hr List.not_mem_nil) rfl rfl rfl) trivial
  let s₂ := s₁.pollDueOutbox "w1" 60 s₁.rows
  have h₂ : (dispatchers config).Reachable s₂ :=
    h₁.step (.poll rfl (picks_all (fun _ => rfl) (by decide) (by decide) (by decide))) trivial
  let s₃ : Dispatch := { s₂ with now := 100 }
  have h₃ : (dispatchers config).Reachable s₃ := h₂.step (.tick (by decide)) trivial
  have hfree₃ : ∀ workerId, (s₃.workers workerId).settling = none := free_setWorker (s := s₁) (fun _ _ => rfl) rfl
  let s₄ := s₃.pollDueOutbox "w2" 60 s₃.rows
  have h₄ : (dispatchers config).Reachable s₄ :=
    h₃.step (.poll (by decide) (picks_all hfree₃ (by decide) (by decide) (by decide))) trivial
  let s₅ := s₄.setWorker "w2" { s₄.workers "w2" with delivered := some (.ok ()) }
  have h₅ : (dispatchers config).Reachable s₅ := h₄.step (.deliver (by decide) rfl) trivial
  have hfree₄ : ∀ workerId, (s₄.workers workerId).settling = none := free_setWorker (fun other _ => hfree₃ other) rfl
  have hfree₅ : ∀ workerId, (s₅.workers workerId).settling = none := free_setWorker (fun other _ => hfree₄ other) rfl
  let settlement := settleSuccess (record.lease "w2" 160)
  let s₆ := s₅.setWorker "w2" { s₅.workers "w2" with settling := some (100, settlement) }
  have h₆ : (dispatchers config).Reachable s₆ :=
    h₅.step (.mark (c := ⟨record.lease "w2" 160, 2⟩) rfl rfl rfl (not_locked hfree₅ _) rfl (by decide)) trivial
  let s₇ : Dispatch :=
    { s₆.setWorker "w2" .idle with
      rows := (settlement.mark 100 id "w2" s₆.rows).2
      settled := s₆.settled ++ [(id, settlement)] }
  have h₇ : (dispatchers config).Reachable s₇ :=
    h₆.step (Dispatch.Step.commit (c := ⟨record.lease "w2" 160, 2⟩) rfl rfl) trivial
  let s₈ := s₇.setWorker "w1" { s₇.workers "w1" with delivered := some (.ok ()) }
  have h₈ : (dispatchers config).Reachable s₈ := h₇.step (.deliver (by decide) rfl) trivial
  have hfree₇ : ∀ workerId, (s₇.workers workerId).settling = none :=
    free_setWorker (s := s₆) (fun other hother => by rw [setWorker_of_ne hother]; exact hfree₅ other) rfl
  have hfree₈ : ∀ workerId, (s₈.workers workerId).settling = none := free_setWorker (fun other _ => hfree₇ other) rfl
  have hstep : Dispatch.Step config s₈ (.mark "w1") (s₈.setWorker "w1" .idle) :=
    .miss (c := ⟨record.lease "w1" 60, 1⟩) rfl rfl rfl (not_locked hfree₈ _) (by decide)
  obtain ⟨-, -, -, htaken⟩ := outbox_leases h₈
  obtain ⟨hrows, hsettled, -⟩ := htaken "w1" _ _ _ rfl ⟨(id, "w2"), by decide, rfl, by decide⟩ hstep
  exact ⟨s₈, _, h₈, rfl, rfl, hstep, hrows, hsettled⟩

end Fusions.Hetuflow
