import Fusions.Library.Calendar

/-! Step snapshots: the decrypted step list of WeChat and the entry of a Shanghai day. -/
namespace Fusions.Weixin
open Fusions.Library

structure WeRunSnapshot where
  stepCount : Int
  stepDate : String
  deriving DecidableEq, Repr

inductive WeRunError where
  | malformed
  | watermark
  | noEntry
  deriving DecidableEq, Repr

structure StepEntry where
  timestamp : Int64
  step : Int64

structure WeRunPlain where
  stepInfoList : List StepEntry
  /-- The appid of the watermark. -/
  appid : String

/-- A signed number as `format!` pads it with zeros; the sign counts. -/
def paddedInt (width : Nat) (n : Int) : List Char :=
  if n < 0 then '-' :: padded (width - 1) n.natAbs else padded width n.natAbs

/-- The date of a Unix time in Shanghai. Only the first sum can overflow: that is a panic (`none`) in a build with
overflow checks, and wraps around in one without. -/
def naiveDateAsiaShanghai (overflowChecks : Bool) (ts : Int64) : Option String :=
  if overflowChecks && 2 ^ 63 ≤ ts.toInt + 8 * 3600 then none
  else
    let secs := (ts + 8 * 3600).toInt
    let days := secs / 86400
    let z := days + 719468
    let era := z / 146097
    let doe := z % 146097
    let yoe := (doe - doe / 1460 + doe / 36524 - doe / 146096) / 365
    let y := yoe + era * 400
    let doy := doe - (365 * yoe + yoe / 4 - yoe / 100)
    let mp := (5 * doy + 2) / 153
    let d := doy - (153 * mp + 2) / 5 + 1
    let m := if mp < 10 then mp + 3 else mp - 9
    let y := if m ≤ 2 then y + 1 else y
    some (String.ofList (paddedInt 4 y ++ '-' :: (paddedInt 2 m ++ '-' :: paddedInt 2 d)))

/-- `step.clamp(0, i32::MAX as i64) as i32`. -/
def clampStep (step : Int64) : Int := max 0 (min step.toInt (2 ^ 31 - 1))

/-- The loop over the entries; `none` is a panic. -/
def snapshotOf (overflowChecks : Bool) (today : String) : List StepEntry → Option (Except WeRunError WeRunSnapshot)
  | [] => some (.error .noEntry)
  | entry :: rest =>
    (naiveDateAsiaShanghai overflowChecks entry.timestamp).bind fun date =>
      if date == today then some (.ok ⟨clampStep entry.step, date⟩) else snapshotOf overflowChecks today rest

section
-- base64, AES-128-CBC with PKCS#7 on whole blocks, and `serde_json`
variable (decode : String → Option (List UInt8))
  (decryptPaddedMut : (key iv data : List UInt8) → Option (List UInt8))
  (fromSlice : List UInt8 → Option WeRunPlain)

/-- The decrypted step list. -/
def stepInfoList (sessionKey encryptedData iv appid : String) : Except WeRunError (List StepEntry) :=
  match decode sessionKey, decode iv, decode encryptedData with
  | some key, some iv, some data =>
    if data.length % 16 ≠ 0 ∨ data = [] then .error .malformed
    else
      match (decryptPaddedMut key iv data).bind fromSlice with
      | none => .error .malformed
      | some parsed => if parsed.appid != appid then .error .watermark else .ok parsed.stepInfoList
  | _, _, _ => .error .malformed

def decryptWerunSnapshot (overflowChecks : Bool) (sessionKey encryptedData iv appid today : String) :
    Option (Except WeRunError WeRunSnapshot) :=
  match stepInfoList decode decryptPaddedMut fromSlice sessionKey encryptedData iv appid with
  | .error error => some (.error error)
  | .ok entries => snapshotOf overflowChecks today entries

end

/-! The day of a time. -/

/-- The day in Shanghai, counted from the epoch. -/
def shanghaiDay (ts : Int64) : Int := (ts.toInt + 28800) / 86400

def InI64 (ts : Int64) : Prop := ts.toInt + 28800 < 2 ^ 63

def FallsOn (entry : StepEntry) (date : Date) : Prop := date.DaysAfter (shanghaiDay entry.timestamp)

/-- A date as the code prints it. -/
def printed (date : Date) : String :=
  String.ofList (paddedInt 4 date.year ++ '-' :: (paddedInt 2 date.month ++ '-' :: paddedInt 2 date.day))

/-- The conversion gives back the date of a day. -/
theorem naiveDate_of_dayNumber {overflowChecks : Bool} {ts : Int64} {date : Date}
    (hts : ¬ (overflowChecks && 2 ^ 63 ≤ ts.toInt + 8 * 3600) = true)
    (hdays : (ts + 8 * 3600).toInt / 86400 = date.dayNumber) :
    naiveDateAsiaShanghai overflowChecks ts = some (printed date) := by
  have hera := date.dayNumber_era
  have hlt := date.dayOfEra_lt
  have hdoe : (date.dayNumber + 719468) % 146097 = 365 * (date.marchYear % 400) + date.marchYear % 400 / 4 -
      date.marchYear % 400 / 100 + date.dayOfYear := by omega
  have hyoe := date.yearInEra_eq hdoe
  have hdoy : (date.dayNumber + 719468) % 146097 - (365 * (date.marchYear % 400) + date.marchYear % 400 / 4 -
      date.marchYear % 400 / 100) = date.dayOfYear := by omega
  have hyear : date.marchYear % 400 + (date.dayNumber + 719468) / 146097 * 400 = date.marchYear := by omega
  rw [naiveDateAsiaShanghai, if_neg hts, printed]
  simp only [hdays, hyoe, hdoy, hyear, date.sinceMarch_eq]
  have hday := date.day_eq
  unfold Date.daysBefore at hday
  rw [← hday, ← date.month_eq, ← date.year_eq]

theorem toInt_shanghai {ts : Int64} (hts : InI64 ts) : (ts + 8 * 3600).toInt = ts.toInt + 28800 := by
  have hle := ts.le_toInt
  unfold InI64 at hts
  rw [Int64.toInt_add, show ((8 : Int64) * 3600).toInt = 28800 from rfl]
  apply Int.bmod_eq_of_le <;> omega

theorem naiveDate_eq (overflowChecks : Bool) {ts : Int64} (hts : InI64 ts) {date : Date}
    (hdate : date.DaysAfter (shanghaiDay ts)) :
    naiveDateAsiaShanghai overflowChecks ts = some (printed date) := by
  apply naiveDate_of_dayNumber
  · unfold InI64 at hts
    simp
    intro _
    omega
  · rw [toInt_shanghai hts]
    exact ((date.daysAfter_iff _).mp hdate).symm

/-- Without overflow checks a time that is too late has a date before the year zero. -/
theorem naiveDate_wraps {ts : Int64} (hts : ¬ InI64 ts) :
    ∃ date : Date, date.year < 0 ∧ naiveDateAsiaShanghai false ts = some (printed date) := by
  obtain ⟨date, hdate⟩ := Date.exists_dayNumber ((ts + 8 * 3600).toInt / 86400)
  refine ⟨date, ?_, naiveDate_of_dayNumber (by simp) hdate.symm⟩
  have hlt := ts.toInt_lt
  have hwrap : (ts + 8 * 3600).toInt = ts.toInt + 28800 - 2 ^ 64 := by
    unfold InI64 at hts
    rw [Int64.toInt_add, show ((8 : Int64) * 3600).toInt = 28800 from rfl,
      Int.bmod_eq_emod]
    split <;> omega
  by_contra hyear
  have hmonth := date.year_eq
  have hdoy := date.dayOfYear_mem
  rw [hwrap] at hdate
  unfold Date.dayNumber at hdate
  split at hmonth <;> omega

/-! The texts of dates. -/

theorem paddedInt_of_nonneg {width : Nat} {n : Int} (h : 0 ≤ n) : paddedInt width n = padded width n.toNat := by
  rw [paddedInt, if_neg (by omega), show n.natAbs = n.toNat by omega]

theorem printed_eq {date : Date} (h : date.FourDigits) : printed date = date.iso := by
  rw [printed, Date.iso, paddedInt_of_nonneg h.1, paddedInt_of_nonneg (by have := date.month_mem; omega),
    paddedInt_of_nonneg (by have := date.day_mem; omega)]

theorem iso_injective {a b : Date} (ha : a.FourDigits) (hb : b.FourDigits) (h : a.iso = b.iso) : a = b := by
  apply Date.dayNumber_injective
  obtain hlt | heq | hlt := Int.lt_trichotomy a.dayNumber b.dayNumber
  · have := Date.iso_lt ha hb (Date.before_of_lt hlt)
    rw [h] at this
    exact absurd this (String.lt_irrefl _)
  · exact heq
  · have := Date.iso_lt hb ha (Date.before_of_lt hlt)
    rw [h] at this
    exact absurd this (String.lt_irrefl _)

theorem iso_length {date : Date} (h : date.FourDigits) : date.iso.toList.length = 10 := by
  have hyear := h.2
  have hmonth := date.month_mem
  have hday := date.day_mem
  have hmost := daysIn_mem date.year date.month
  simp only [Date.iso, String.toList_ofList, List.length_append, List.length_cons,
    length_padded (show 0 < 4 by decide) (show date.year.toNat < 10000 by omega),
    length_padded (show 0 < 2 by decide) (show date.month.toNat < 100 by omega),
    length_padded (show 0 < 2 by decide) (show date.day.toNat < 100 by omega)]

/-- The text of another date is another one, with a sign in front or longer where the year has not four digits. -/
theorem printed_injective {date today : Date} (htoday : today.FourDigits) (h : printed date = today.iso) :
    date = today := by
  by_cases hyear : date.FourDigits
  · rw [printed_eq hyear] at h
    exact iso_injective hyear htoday h
  · exfalso
    have hlist := congrArg String.toList h
    rw [printed, String.toList_ofList] at hlist
    obtain hneg | hlarge : date.year < 0 ∨ 10000 ≤ date.year := by
      unfold Date.FourDigits at hyear
      omega
    · rw [paddedInt, if_pos hneg, Date.iso, String.toList_ofList] at hlist
      cases hdigits : padded 4 today.year.toNat with
      | nil =>
        have := width_le_length_padded 4 today.year.toNat
        rw [hdigits] at this
        exact absurd this (by decide)
      | cons c cs =>
        rw [hdigits] at hlist
        have hdigit := isDigit_padded (c := c) (by rw [hdigits]; exact List.mem_cons_self)
        rw [← (List.cons.inj hlist).1] at hdigit
        exact absurd hdigit (by decide)
    · have hlength := congrArg List.length hlist
      have hlong := length_padded_gt (show 0 < 4 by decide) (show 10 ^ 4 ≤ date.year.toNat by omega)
      have hmonth := width_le_length_padded 2 date.month.toNat
      have hday := width_le_length_padded 2 date.day.toNat
      have hmonths := date.month_mem
      have hdays := date.day_mem
      rw [iso_length htoday, paddedInt_of_nonneg (by omega), paddedInt_of_nonneg (by omega),
        paddedInt_of_nonneg (by omega)] at hlength
      simp only [List.length_append, List.length_cons] at hlength
      omega

/-! What is promised. -/

structure TakesRightDay (overflowChecks : Bool) : Prop where
  dated : ∀ ts, InI64 ts → ∃ date : Date, date.DaysAfter (shanghaiDay ts) ∧
    (date.FourDigits → naiveDateAsiaShanghai overflowChecks ts = some date.iso)
  monotone : ∀ ts ts' (date date' : Date), InI64 ts → InI64 ts' → date.DaysAfter (shanghaiDay ts) →
    date'.DaysAfter (shanghaiDay ts') → date.FourDigits → date'.FourDigits → shanghaiDay ts < shanghaiDay ts' →
    ∃ text text', naiveDateAsiaShanghai overflowChecks ts = some text ∧
      naiveDateAsiaShanghai overflowChecks ts' = some text' ∧ text < text'
  snapshot : ∀ decode decryptPaddedMut fromSlice sessionKey encryptedData iv appid entries (today : Date),
    stepInfoList decode decryptPaddedMut fromSlice sessionKey encryptedData iv appid = .ok entries →
    (overflowChecks = true → ∀ entry ∈ entries, InI64 entry.timestamp) → today.FourDigits →
    (∀ before entry after, entries = before ++ entry :: after → (∀ e ∈ before, ¬ FallsOn e today) →
      FallsOn entry today →
      decryptWerunSnapshot decode decryptPaddedMut fromSlice overflowChecks sessionKey encryptedData iv appid today.iso =
        some (.ok ⟨clampStep entry.step, today.iso⟩)) ∧
    (decryptWerunSnapshot decode decryptPaddedMut fromSlice overflowChecks sessionKey encryptedData iv appid today.iso =
      some (.error .noEntry) ↔ ∀ e ∈ entries, ¬ FallsOn e today)

/-- The text of an entry's time is that of the day that it falls on. -/
theorem naiveDate_iff {overflowChecks : Bool} {entry : StepEntry} {today : Date} (htoday : today.FourDigits)
    (hentry : overflowChecks = true → InI64 entry.timestamp) :
    ∃ text, naiveDateAsiaShanghai overflowChecks entry.timestamp = some text ∧
      (text = today.iso ↔ FallsOn entry today) := by
  by_cases hts : InI64 entry.timestamp
  · obtain ⟨date, hdate⟩ := Date.exists_dayNumber (shanghaiDay entry.timestamp)
    refine ⟨_, naiveDate_eq overflowChecks hts ((date.daysAfter_iff _).mpr hdate), ?_⟩
    rw [FallsOn, Date.daysAfter_iff]
    constructor
    · intro h
      rw [← printed_injective htoday h, hdate]
    · intro h
      rw [← hdate] at h
      rw [Date.dayNumber_injective h] at htoday ⊢
      exact printed_eq htoday
  · cases overflowChecks with
    | true => exact absurd (hentry rfl) hts
    | false =>
      obtain ⟨date, hyear, hdate⟩ := naiveDate_wraps hts
      refine ⟨_, hdate, ?_⟩
      constructor
      · intro h
        rw [printed_injective htoday h] at hyear
        exact absurd htoday.1 (Int.not_le.mpr hyear)
      · -- no date with four digits is that late
        intro h
        have hnumber := (today.daysAfter_iff _).mp h
        have hyear := today.year_eq
        have hdoy := today.dayOfYear_mem
        have hlate := htoday.2
        unfold Date.dayNumber shanghaiDay at hnumber
        unfold InI64 at hts
        split at hyear <;> omega

theorem snapshotOf_first {overflowChecks : Bool} {today : Date} (htoday : today.FourDigits) {entries : List StepEntry}
    (hentries : overflowChecks = true → ∀ entry ∈ entries, InI64 entry.timestamp) :
    (∀ before entry after, entries = before ++ entry :: after → (∀ e ∈ before, ¬ FallsOn e today) →
      FallsOn entry today →
      snapshotOf overflowChecks today.iso entries = some (.ok ⟨clampStep entry.step, today.iso⟩)) ∧
    (snapshotOf overflowChecks today.iso entries = some (.error .noEntry) ↔ ∀ e ∈ entries, ¬ FallsOn e today) := by
  induction entries with
  | nil => exact ⟨fun before entry after heq => absurd heq.symm (by simp), fun _ => nofun, fun _ => rfl⟩
  | cons e rest ih =>
    obtain ⟨ihfirst, ihnone⟩ := ih fun hchecks x hx => hentries hchecks x (List.mem_cons_of_mem e hx)
    obtain ⟨text, htext, hiff⟩ := naiveDate_iff htoday fun hchecks => hentries hchecks e List.mem_cons_self
    rw [snapshotOf, htext, Option.bind_some]
    by_cases hfalls : FallsOn e today
    · obtain rfl := hiff.mpr hfalls
      rw [if_pos (by simp)]
      constructor
      · intro before entry after heq hbefore _
        cases before with
        | nil =>
          obtain ⟨rfl, _⟩ := List.cons.inj heq
          rfl
        | cons b before =>
          obtain ⟨rfl, _⟩ := List.cons.inj heq
          exact absurd hfalls (hbefore _ List.mem_cons_self)
      · exact ⟨nofun, fun hnone => absurd hfalls (hnone e List.mem_cons_self)⟩
    · have hne : ¬ (text == today.iso) = true := by
        rw [beq_iff_eq, hiff]
        exact hfalls
      rw [if_neg hne]
      constructor
      · intro before entry after heq hbefore hentry
        cases before with
        | nil =>
          obtain ⟨rfl, _⟩ := List.cons.inj heq
          exact absurd hentry hfalls
        | cons b before =>
          obtain ⟨rfl, rfl⟩ := List.cons.inj heq
          exact ihfirst before entry after rfl (fun x hx => hbefore x (List.mem_cons_of_mem _ hx)) hentry
      · rw [ihnone, List.forall_mem_cons]
        exact ⟨fun h => ⟨hfalls, h⟩, And.right⟩

/-- Dates are those of the Shanghai days, and a snapshot is that of the first entry of the day. -/
theorem takes_right_day (overflowChecks : Bool) : TakesRightDay overflowChecks := by
  refine ⟨?_, ?_, ?_⟩
  · intro ts hts
    obtain ⟨date, hdate⟩ := Date.exists_dayNumber (shanghaiDay ts)
    have hafter := (date.daysAfter_iff _).mpr hdate
    refine ⟨date, hafter, fun hyear => ?_⟩
    rw [naiveDate_eq overflowChecks hts hafter, printed_eq hyear]
  · intro ts ts' date date' hts hts' hdate hdate' hyear hyear' hlt
    refine ⟨_, _, naiveDate_eq overflowChecks hts hdate, naiveDate_eq overflowChecks hts' hdate', ?_⟩
    rw [printed_eq hyear, printed_eq hyear']
    apply Date.iso_lt hyear hyear' (Date.before_of_lt _)
    rwa [(date.daysAfter_iff _).mp hdate, (date'.daysAfter_iff _).mp hdate']
  · intro decode decryptPaddedMut fromSlice sessionKey encryptedData iv appid entries today hsteps hentries htoday
    simp only [decryptWerunSnapshot, hsteps]
    exact snapshotOf_first htoday hentries

example : naiveDateAsiaShanghai true 0 = some "1970-01-01" ∧
    naiveDateAsiaShanghai true 1792358400 = some "2026-10-19" := by decide

end Fusions.Weixin
