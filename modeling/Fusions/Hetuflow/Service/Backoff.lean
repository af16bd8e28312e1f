import Fusions.Hetuflow.Service.Worker

/-! The delay before an outbox record is tried again, in the integers of the machine. -/
namespace Fusions.Hetuflow.Backoff

/-- `a + b` of `i32`, none where it overflows. -/
def addI32 (a b : Int32) : Option Int32 :=
  let sum := a.toInt + b.toInt
  if -2 ^ 31 ≤ sum ∧ sum < 2 ^ 31 then some (Int32.ofInt sum) else none

/-- `i64::checked_shl`. -/
def checkedShl (a : Int64) (shift : UInt32) : Option Int64 :=
  if shift < 64 then some (a <<< Int64.ofNat shift.toNat) else none

/-- `i64::saturating_mul`. -/
def saturatingMul (a b : Int64) : Int64 := Int64.ofInt (Hetuflow.saturatingMul a.toInt b.toInt)

def retryBackoffSecs (attempt : Int32) (base cap : Int64) : Int64 :=
  if attempt < 0 then base
  else
    let shift := (min attempt 20).toUInt32
    let scaled := saturatingMul base ((checkedShl 1 shift).getD Int64.maxValue)
    min scaled cap

structure RetryConfig where
  retryBaseSecs : Int64
  retryCapSecs : Int64

/-- `WorkerConfig::default()`. -/
def RetryConfig.default : RetryConfig := ⟨10, 300⟩

inductive Outcome where
  | deadLetter
  | retry (backoffSecs : Int32)
  deriving DecidableEq, Repr

/-- `settle_failure`, up to what it writes. -/
def settleFailure (config : RetryConfig) (attemptCount maxAttempts : Int32) (kind : CallbackErrorKind) :
    Option Outcome := do
  let attempts ← addI32 attemptCount 1
  let exhausted := attempts ≥ maxAttempts
  let backoff := retryBackoffSecs attemptCount config.retryBaseSecs config.retryCapSecs
  return if kind = .deterministic ∨ exhausted then .deadLetter else .retry backoff.toInt32

example : settleFailure .default 3 5 .transient = some (.retry 80) := by decide

/-- The failure of a record is settled without overflow, and its delay is what the configuration says. -/
structure Safe (config : RetryConfig) (attemptCount maxAttempts : Int32) : Prop where
  computes : ∀ kind, (settleFailure config attemptCount maxAttempts kind).isSome = true
  monotone : ∀ attempt attempt' : Int32, attempt ≤ attempt' →
    retryBackoffSecs attempt config.retryBaseSecs config.retryCapSecs ≤
      retryBackoffSecs attempt' config.retryBaseSecs config.retryCapSecs
  between : config.retryBaseSecs ≤ retryBackoffSecs attemptCount config.retryBaseSecs config.retryCapSecs ∧
    retryBackoffSecs attemptCount config.retryBaseSecs config.retryCapSecs ≤ config.retryCapSecs
  converts : 0 ≤ (retryBackoffSecs attemptCount config.retryBaseSecs config.retryCapSecs).toInt32.toInt ∧
    (retryBackoffSecs attemptCount config.retryBaseSecs config.retryCapSecs).toInt32.toInt =
      (retryBackoffSecs attemptCount config.retryBaseSecs config.retryCapSecs).toInt

/-- The record is not at the end of `i32`, and the delays of the configuration are ones. -/
structure Bounded (config : RetryConfig) (attemptCount : Int32) : Prop where
  attempt : attemptCount ≠ Int32.maxValue
  base : 0 ≤ config.retryBaseSecs
  cap : config.retryBaseSecs ≤ config.retryCapSecs
  fits : config.retryCapSecs.toInt < 2 ^ 31 ∨
    config.retryBaseSecs.toInt * 2 ^ (min attemptCount.toInt 20).toNat < 2 ^ 31

section
variable {config : RetryConfig} {attempt attempt' attemptCount maxAttempts : Int32} {base cap : Int64}

theorem min_i32 (a b : Int32) : (min a b).toInt = min a.toInt b.toInt := by
  change (if a ≤ b then a else b).toInt = _
  split
  · next h => exact (Int.min_eq_left (Int32.le_iff_toInt_le.1 h)).symm
  · next h => exact (Int.min_eq_right (Int.le_of_not_le (mt Int32.le_iff_toInt_le.2 h))).symm

theorem min_i64 (a b : Int64) : (min a b).toInt = min a.toInt b.toInt := by
  change (if a ≤ b then a else b).toInt = _
  split
  · next h => exact (Int.min_eq_left (Int64.le_iff_toInt_le.1 h)).symm
  · next h => exact (Int.min_eq_right (Int.le_of_not_le (mt Int64.le_iff_toInt_le.2 h))).symm

theorem saturatingMul_toInt (a b : Int64) : (saturatingMul a b).toInt = Hetuflow.saturatingMul a.toInt b.toInt := by
  refine Int64.toInt_ofInt_of_le ?_ ?_ <;> unfold Hetuflow.saturatingMul <;> omega

/-- No shift that is made leaves `i64`. -/
theorem checkedShl_toInt {shift : Nat} (h : shift ≤ 20) :
    ((checkedShl 1 (UInt32.ofNat shift)).getD Int64.maxValue).toInt = 2 ^ shift := by
  revert shift
  decide

theorem shift_eq {attempt : Int32} (h : 0 ≤ attempt.toInt) :
    (min attempt 20).toUInt32 = UInt32.ofNat (min attempt.toInt 20).toNat := by
  have hmin : (min attempt 20).toInt = min attempt.toInt 20 := min_i32 attempt 20
  have hnonneg : 0 ≤ min attempt 20 := by
    rw [Int32.le_iff_toInt_le, hmin]
    exact Int.le_min.2 ⟨h, by decide⟩
  apply UInt32.toNat_inj.1
  rw [Int32.toNat_toUInt32_of_le hnonneg, Int32.toNatClampNeg, hmin, UInt32.toNat_ofNat']
  omega

/-- The delay is that of the integers. -/
theorem retryBackoffSecs_toInt : (retryBackoffSecs attempt base cap).toInt =
    Hetuflow.retryBackoffSecs attempt.toInt base.toInt cap.toInt := by
  unfold retryBackoffSecs Hetuflow.retryBackoffSecs
  have hneg : attempt < 0 ↔ attempt.toInt < 0 := Int32.lt_iff_toInt_lt
  by_cases h : attempt < 0
  · rw [if_pos h, if_pos (hneg.1 h)]
  · have hnonneg := Int.not_lt.1 (mt hneg.2 h)
    rw [if_neg h, if_neg (Int.not_lt.2 hnonneg)]
    dsimp only
    rw [min_i64, saturatingMul_toInt, shift_eq hnonneg, checkedShl_toInt (by omega)]

theorem addI32_one : (addI32 attemptCount 1).isSome = true ↔ attemptCount ≠ Int32.maxValue := by
  have hlt := attemptCount.toInt_lt
  have hle := attemptCount.le_toInt
  have hone : (1 : Int32).toInt = 1 := rfl
  have hmax : attemptCount = Int32.maxValue ↔ attemptCount.toInt = 2 ^ 31 - 1 := by
    rw [← Int32.toInt_inj]
    rfl
  unfold addI32
  rw [ne_eq, hmax, hone]
  dsimp only
  split <;> simp <;> omega

theorem computes_iff : (∀ kind, (settleFailure config attemptCount maxAttempts kind).isSome = true) ↔
    attemptCount ≠ Int32.maxValue := by
  have hsome (kind : CallbackErrorKind) : (settleFailure config attemptCount maxAttempts kind).isSome =
      (addI32 attemptCount 1).isSome := by
    unfold settleFailure
    cases addI32 attemptCount 1 <;> rfl
  simp only [hsome, addI32_one]
  exact ⟨fun h => h .deterministic, fun h _ => h⟩

/-- What is written for a record. -/
def Outcome.settlement (record : OutboxRecord) (message : String) : Outcome → Settlement
  | .deadLetter => .deadLetter message (.onOutboxDeadLetter record.activityInstanceId record.activityType message)
  | .retry backoffSecs => .retry backoffSecs.toInt message

theorem addI32_toInt {a b sum : Int32} (h : addI32 a b = some sum) : sum.toInt = a.toInt + b.toInt := by
  unfold addI32 at h
  dsimp only at h
  split at h
  · next hrange =>
    obtain rfl := Option.some.inj h
    exact Int32.toInt_ofInt_of_le hrange.1 hrange.2
  · cases h

/-- Where nothing overflows, a failure is settled as it is in the integers. -/
theorem settleFailure_toInt {workers : WorkerConfig} {record : OutboxRecord} {error : CallbackError}
    {outcome : Outcome} (hbase : workers.retryBaseSecs = config.retryBaseSecs.toInt)
    (hcap : workers.retryCapSecs = config.retryCapSecs.toInt) (hcount : record.attemptCount = attemptCount.toInt)
    (hmax : record.maxAttempts = maxAttempts.toInt)
    (h : settleFailure config attemptCount maxAttempts error.kind = some outcome) :
    Hetuflow.settleFailure workers record error = outcome.settlement record error.message := by
  unfold settleFailure at h
  obtain ⟨attempts, hadd, houtcome⟩ := Option.bind_eq_some_iff.1 h
  have hattempts : attempts.toInt = attemptCount.toInt + 1 := addI32_toInt hadd
  have hexhausted : attempts ≥ maxAttempts ↔ record.attemptCount + 1 ≥ record.maxAttempts := by
    rw [hcount, hmax, ← hattempts]
    exact Int32.le_iff_toInt_le
  obtain rfl := Option.some.inj houtcome
  unfold Hetuflow.settleFailure
  dsimp only
  by_cases hdead : error.kind = .deterministic ∨ attempts ≥ maxAttempts
  · rw [if_pos hdead, if_pos (hdead.imp_right hexhausted.1)]
    rfl
  · rw [if_neg hdead, if_neg (mt (Or.imp_right hexhausted.2) hdead), Outcome.settlement, Int64.toInt_toInt32,
      retryBackoffSecs_toInt, hbase, hcap, hcount]
    rfl

/-! The delay of a configuration whose cap is no less than its base. -/

theorem two_pow_mono {m n : Nat} (h : m ≤ n) : (2 : Int) ^ m ≤ 2 ^ n :=
  mod_cast Nat.pow_le_pow_right (by decide) h

/-- A delay that is scaled is no less. -/
theorem le_scaled {b : Int} (hbase : 0 ≤ b) (n : Nat) : b ≤ b * 2 ^ n := by
  have hscaled := Int.mul_le_mul_of_nonneg_left (two_pow_mono (Nat.zero_le n)) hbase
  rwa [Int.pow_zero, Int.mul_one] at hscaled

theorem delay_eq {a b c : Int} (hbase : 0 ≤ b) (hcap : b ≤ c) (hc : c < 2 ^ 63) :
    Hetuflow.retryBackoffSecs a b c = min (b * 2 ^ (min a 20).toNat) c := by
  have hscaled := le_scaled hbase (min a 20).toNat
  unfold Hetuflow.retryBackoffSecs Hetuflow.saturatingMul
  by_cases ha : a < 0
  · have hzero : (min a 20).toNat = 0 := by omega
    rw [if_pos ha, hzero, Int.pow_zero, Int.mul_one]
    omega
  · rw [if_neg ha]
    omega

theorem delay_monotone {a a' b c : Int} (hbase : 0 ≤ b) (hcap : b ≤ c) (hc : c < 2 ^ 63) (ha : a ≤ a') :
    Hetuflow.retryBackoffSecs a b c ≤ Hetuflow.retryBackoffSecs a' b c := by
  have hshift : (min a 20).toNat ≤ (min a' 20).toNat := by omega
  have hscaled := Int.mul_le_mul_of_nonneg_left (two_pow_mono hshift) hbase
  rw [delay_eq hbase hcap hc, delay_eq hbase hcap hc]
  omega

/-- A negative base gives negative delays. -/
theorem delay_neg {a b c : Int} (hbase : b < 0) : Hetuflow.retryBackoffSecs a b c < 0 := by
  have hscaled : b * 2 ^ (min a 20).toNat < 0 := Int.mul_neg_of_neg_of_pos hbase (Int.pow_pos (by decide))
  unfold Hetuflow.retryBackoffSecs Hetuflow.saturatingMul
  split <;> omega

/-- What is converted to `i32` and stays the same is one. -/
theorem toInt32_eq_iff {n : Int64} : n.toInt32.toInt = n.toInt ↔ -2 ^ 31 ≤ n.toInt ∧ n.toInt < 2 ^ 31 := by
  constructor
  · intro h
    rw [← h]
    exact ⟨n.toInt32.le_toInt, n.toInt32.toInt_lt⟩
  · rintro ⟨hle, hlt⟩
    rw [Int64.toInt_toInt32]
    exact Int.bmod_eq_of_le (by omega) (by omega)

end

theorem safe_iff (config : RetryConfig) (attemptCount maxAttempts : Int32) :
    Safe config attemptCount maxAttempts ↔ Bounded config attemptCount := by
  obtain ⟨base, cap⟩ := config
  have hlt := cap.toInt_lt
  constructor
  · rintro ⟨hcomputes, -, ⟨hbase, hcap⟩, hnonneg, hconverts⟩
    dsimp only at hbase hcap hnonneg hconverts
    rw [hconverts] at hnonneg
    rw [toInt32_eq_iff] at hconverts
    rw [Int64.le_iff_toInt_le] at hbase hcap
    have hbase₀ : 0 ≤ base.toInt := by
      rw [retryBackoffSecs_toInt] at hnonneg
      exact Int.not_lt.1 fun hneg => Int.not_lt.2 hnonneg (delay_neg hneg)
    have hle := Int.le_trans hbase hcap
    rw [retryBackoffSecs_toInt, delay_eq hbase₀ hle hlt] at hconverts
    refine ⟨computes_iff.1 hcomputes, Int64.le_iff_toInt_le.2 hbase₀, Int64.le_iff_toInt_le.2 hle, ?_⟩
    dsimp only
    omega
  · rintro ⟨hattempt, hbase, hcap, hfits⟩
    dsimp only at hbase hcap hfits
    rw [Int64.le_iff_toInt_le] at hbase hcap
    have hdelay : (retryBackoffSecs attemptCount base cap).toInt =
        min (base.toInt * 2 ^ (min attemptCount.toInt 20).toNat) cap.toInt := by
      rw [retryBackoffSecs_toInt, delay_eq hbase hcap hlt]
    have hscaled := le_scaled hbase (min attemptCount.toInt 20).toNat
    have hzero : (0 : Int64).toInt = 0 := rfl
    have hconverts : (retryBackoffSecs attemptCount base cap).toInt32.toInt =
        (retryBackoffSecs attemptCount base cap).toInt := by
      rw [toInt32_eq_iff, hdelay]
      omega
    refine ⟨computes_iff.2 hattempt, fun a a' ha => ?_, ⟨?_, ?_⟩, ?_, hconverts⟩
    · rw [Int64.le_iff_toInt_le, retryBackoffSecs_toInt, retryBackoffSecs_toInt]
      exact delay_monotone hbase hcap hlt (Int32.le_iff_toInt_le.1 ha)
    · rw [Int64.le_iff_toInt_le, hdelay]
      dsimp only
      omega
    · rw [Int64.le_iff_toInt_le, hdelay]
      exact Int.min_le_right ..
    · rw [hconverts, hdelay]
      omega

/-- As the workers are configured, all records but those at the end of `i32`. -/
theorem bounded_default (attemptCount : Int32) : Bounded .default attemptCount ↔ attemptCount ≠ Int32.maxValue :=
  ⟨Bounded.attempt, fun h => ⟨h, by decide, by decide, .inl (by decide)⟩⟩

/-- The count after the last attempt of `i32` overflows. -/
theorem last_attempt_overflows : ¬ Safe .default Int32.maxValue 5 := fun h =>
  absurd (h.computes .transient) (by decide)

end Fusions.Hetuflow.Backoff
