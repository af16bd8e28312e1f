import Mathlib.Algebra.Group.Int.Defs
import Mathlib.Data.Int.Init
import Mathlib.Logic.Function.Iterate
import Fusions.Library.Padded

/-! The proleptic Gregorian calendar: dates, the next day, and the number of a day. -/
namespace Fusions.Library

def isLeap (year : Int) : Bool := year % 4 = 0 && (year % 100 ≠ 0 || year % 400 = 0)

def daysIn (year month : Int) : Int :=
  if month = 2 then if isLeap year then 29 else 28
  else if month = 4 ∨ month = 6 ∨ month = 9 ∨ month = 11 then 30
  else 31

structure Date where
  year : Int
  month : Int
  day : Int
  month_mem : 1 ≤ month ∧ month ≤ 12
  day_mem : 1 ≤ day ∧ day ≤ daysIn year month
  deriving DecidableEq

theorem isLeap_iff (year : Int) : isLeap year = true ↔ year % 4 = 0 ∧ (year % 100 ≠ 0 ∨ year % 400 = 0) := by
  simp [isLeap]

theorem daysIn_february (year : Int) : daysIn year 2 = if isLeap year then 29 else 28 := rfl

theorem daysIn_mem (year month : Int) : 28 ≤ daysIn year month ∧ daysIn year month ≤ 31 := by
  unfold daysIn
  split
  · split <;> omega
  · split <;> omega

namespace Date

/-- The first of January 1970. -/
def epoch : Date := ⟨1970, 1, 1, by decide, by decide⟩

def next (date : Date) : Date :=
  if h : date.day < daysIn date.year date.month then
    ⟨date.year, date.month, date.day + 1, date.month_mem, by have := date.day_mem; omega⟩
  else if h : date.month < 12 then
    ⟨date.year, date.month + 1, 1, by have := date.month_mem; omega, by have := daysIn_mem date.year (date.month + 1); omega⟩
  else ⟨date.year + 1, 1, 1, by decide, by have := daysIn_mem (date.year + 1) 1; omega⟩

def prev (date : Date) : Date :=
  if h : 1 < date.day then
    ⟨date.year, date.month, date.day - 1, date.month_mem, by have := date.day_mem; omega⟩
  else if h : 1 < date.month then
    ⟨date.year, date.month - 1, daysIn date.year (date.month - 1), by have := date.month_mem; omega,
      by have := daysIn_mem date.year (date.month - 1); omega⟩
  else ⟨date.year - 1, 12, 31, by decide, by simp [daysIn]⟩

/-- The date is so many days after the epoch, or before it for a negative number. -/
def DaysAfter (date : Date) (n : Int) : Prop :=
  if 0 ≤ n then next^[n.toNat] epoch = date else next^[(-n).toNat] date = epoch

/-- The months of a year that begins in March, counted from zero. -/
def sinceMarch (month : Int) : Int := if month ≤ 2 then month + 9 else month - 3

/-- The days of such a year before a month. -/
def daysBefore (month : Int) : Int := (153 * month + 2) / 5

/-- The year of a date when years begin in March. -/
def marchYear (date : Date) : Int := if date.month ≤ 2 then date.year - 1 else date.year

/-- The day of such a year, from zero. -/
def dayOfYear (date : Date) : Int := daysBefore (sinceMarch date.month) + date.day - 1

/-- The number of a day counts from the epoch. With years that begin in March a leap day ends one. -/
def dayNumber (date : Date) : Int :=
  365 * date.marchYear + date.marchYear / 4 - date.marchYear / 100 + date.marchYear / 400 + date.dayOfYear - 719468

theorem month_cases {month : Int} (h : 1 ≤ month ∧ month ≤ 12) : month = 1 ∨ month = 2 ∨ month = 3 ∨ month = 4 ∨
    month = 5 ∨ month = 6 ∨ month = 7 ∨ month = 8 ∨ month = 9 ∨ month = 10 ∨ month = 11 ∨ month = 12 := by
  omega

/-- The length of each month but February. -/
theorem daysIn_eq {year month : Int} (h : 1 ≤ month ∧ month ≤ 12) (hne : month ≠ 2) :
    daysIn year month = daysBefore (sinceMarch month + 1) - daysBefore (sinceMarch month) := by
  obtain rfl | rfl | rfl | rfl | rfl | rfl | rfl | rfl | rfl | rfl | rfl | rfl := month_cases h
  case inr.inl => exact absurd rfl hne
  all_goals rfl

theorem sinceMarch_succ {month : Int} (hne : month ≠ 2) : sinceMarch (month + 1) = sinceMarch month + 1 := by
  unfold sinceMarch
  split <;> split <;> omega

theorem dayNumber_next (date : Date) : date.next.dayNumber = date.dayNumber + 1 := by
  obtain ⟨year, month, day, hmonth, hday⟩ := date
  unfold next
  dsimp only
  split
  · simp only [dayNumber, marchYear, dayOfYear]
    omega
  · rename_i hlast
    have hlast : day = daysIn year month := by omega
    by_cases hfebruary : month = 2
    · -- with the last of February ends the year, after a leap day where the next one is leap
      subst hfebruary
      have hleap := isLeap_iff year
      rw [dif_pos (by omega)]
      simp only [dayNumber, marchYear, dayOfYear, show (2 : Int) + 1 = 3 from rfl, show daysBefore (sinceMarch 3) = 0 from rfl,
        show daysBefore (sinceMarch 2) = 337 from rfl, Int.reduceLE, if_true, if_false]
      have hfour : (year - 1) / 4 = year / 4 - if year % 4 = 0 then 1 else 0 := by split <;> omega
      have hcentury : (year - 1) / 100 = year / 100 - if year % 100 = 0 then 1 else 0 := by split <;> omega
      have hera : (year - 1) / 400 = year / 400 - if year % 400 = 0 then 1 else 0 := by split <;> omega
      rw [hfour, hcentury, hera]
      by_cases h : isLeap year = true
      · have hdays : daysIn year 2 = 29 := by simp [daysIn, h]
        have := hleap.mp h
        omega
      · have hdays : daysIn year 2 = 28 := by simp [daysIn, h]
        have := mt hleap.mpr h
        omega
    · rw [daysIn_eq hmonth hfebruary] at hlast
      split
      · simp only [dayNumber, marchYear, dayOfYear, sinceMarch_succ hfebruary]
        have hiff : month + 1 ≤ 2 ↔ month ≤ 2 := by omega
        simp only [hiff]
        omega
      · obtain rfl : month = 12 := by omega
        simp only [show daysBefore (sinceMarch 12 + 1) = 306 from rfl, show daysBefore (sinceMarch 12) = 275 from rfl]
          at hlast
        simp only [dayNumber, marchYear, dayOfYear, show daysBefore (sinceMarch 1) = 306 from rfl,
          show daysBefore (sinceMarch 12) = 275 from rfl]
        omega

theorem next_prev (date : Date) : date.prev.next = date := by
  obtain ⟨year, month, day, hmonth, hday⟩ := date
  unfold prev
  dsimp only
  split
  · unfold next
    dsimp only
    rw [dif_pos (by omega)]
    congr 1
    omega
  · split
    · unfold next
      dsimp only
      rw [dif_neg (by omega), dif_pos (by omega)]
      congr 1
      · omega
      · omega
    · obtain rfl : month = 1 := by omega
      obtain rfl : day = 1 := by omega
      unfold next
      dsimp only
      rw [dif_neg (by simp [daysIn]), dif_neg (by decide)]
      congr 1
      omega

theorem dayNumber_iterate (n : Nat) (date : Date) : (next^[n] date).dayNumber = date.dayNumber + n := by
  induction n generalizing date with
  | zero => simp
  | succ n ih =>
    rw [Function.iterate_succ_apply, ih, dayNumber_next]
    omega

theorem dayNumber_epoch : epoch.dayNumber = 0 := by decide

/-- Every number is that of a day. -/
theorem exists_dayNumber (n : Int) : ∃ date : Date, date.dayNumber = n := by
  have hprev : ∀ date : Date, date.prev.dayNumber = date.dayNumber - 1 := by
    intro date
    have h := dayNumber_next date.prev
    rw [next_prev] at h
    omega
  induction n using Int.induction_on with
  | zero => exact ⟨epoch, dayNumber_epoch⟩
  | succ n ih =>
    obtain ⟨date, hdate⟩ := ih
    exact ⟨date.next, by rw [dayNumber_next, hdate]⟩
  | pred n ih =>
    obtain ⟨date, hdate⟩ := ih
    exact ⟨date.prev, by rw [hprev, hdate]⟩

/-! The order of dates. -/

def Before (date date' : Date) : Prop :=
  date.year < date'.year ∨ date.year = date'.year ∧
    (date.month < date'.month ∨ date.month = date'.month ∧ date.day < date'.day)

theorem Before.trans {a b c : Date} (h : a.Before b) (h' : b.Before c) : a.Before c := by
  unfold Before at *
  omega

theorem before_next (date : Date) : date.Before date.next := by
  unfold Before next
  split
  · dsimp only
    omega
  · split <;> dsimp only <;> omega

theorem before_iterate (n : Nat) (date : Date) : date.Before (next^[n + 1] date) := by
  induction n generalizing date with
  | zero => exact date.before_next
  | succ n ih =>
    rw [Function.iterate_succ_apply]
    exact date.before_next.trans (ih date.next)

end Date

/-! Numbers within an era of 400 years. -/

/-- The years of an era by their century, their four years and the year of these, with the day of the year: how the
year is found from the day of the era, where a leap day may end a year. -/
theorem yearOfEra {c q r doy : Int} (hc : 0 ≤ c ∧ c ≤ 3) (hq : 0 ≤ q ∧ q ≤ 24) (hr : 0 ≤ r ∧ r ≤ 3)
    (hdoy : 0 ≤ doy ∧ doy ≤ 365) (hleap : doy = 365 → r = 3 ∧ (q ≠ 24 ∨ c = 3)) :
    let doe := 36524 * c + 1461 * q + 365 * r + doy
    (doe - doe / 1460 + doe / 36524 - doe / 146096) / 365 = 100 * c + 4 * q + r := by
  intro doe
  have hcentury : doe / 36524 - doe / 146096 = c := by
    by_cases hlast : doe = 146096
    · omega
    · have hlt : doe < 36524 * (c + 1) := by
        by_cases hq24 : q = 24
        · omega
        · omega
      omega
  have hfour : doe / 1460 = 25 * c + q + if 1460 ≤ 24 * c + q + 365 * r + doy then 1 else 0 := by
    split <;> omega
  split at hfour <;> omega

/-- A year of an era, by its century, the four years and the year of these. -/
theorem era_split (year : Int) : ∃ c q r : Int, (0 ≤ c ∧ c ≤ 3) ∧ (0 ≤ q ∧ q ≤ 24) ∧ (0 ≤ r ∧ r ≤ 3) ∧
    year % 400 = 100 * c + 4 * q + r ∧ year % 100 = 4 * q + r ∧ year % 4 = r :=
  ⟨year % 400 / 100, year % 100 / 4, year % 4, by omega, by omega, by omega, by omega, by omega, by omega⟩

namespace Date

/-- The day lies within its month, that of February within thirty days. -/
theorem day_le (date : Date) :
    daysBefore (sinceMarch date.month) + date.day ≤ daysBefore (sinceMarch date.month + 1) := by
  obtain ⟨year, month, day, hmonth, hday⟩ := date
  by_cases hfebruary : month = 2
  · subst hfebruary
    rw [daysIn_february] at hday
    simp only [show daysBefore (sinceMarch 2 + 1) = 367 from rfl, show daysBefore (sinceMarch 2) = 337 from rfl]
    split at hday <;> omega
  · rw [daysIn_eq hmonth hfebruary] at hday
    dsimp only
    omega

theorem sinceMarch_mem {month : Int} (h : 1 ≤ month ∧ month ≤ 12) : 0 ≤ sinceMarch month ∧ sinceMarch month ≤ 11 := by
  unfold sinceMarch
  split <;> omega

/-- Only days of February end a year that begins in March. -/
theorem dayOfYear_lt {date : Date} (hne : date.month ≠ 2) : date.dayOfYear < 337 := by
  have hle := date.day_le
  have hmonth := date.month_mem
  have hten : sinceMarch date.month ≤ 10 := by
    unfold sinceMarch
    split <;> omega
  unfold dayOfYear
  unfold daysBefore at *
  omega

theorem dayOfYear_february {date : Date} (h : date.month = 2) : date.dayOfYear = 336 + date.day := by
  rw [dayOfYear, h, show daysBefore (sinceMarch 2) = 337 from rfl]
  omega

theorem dayOfYear_mem (date : Date) : 0 ≤ date.dayOfYear ∧ date.dayOfYear ≤ 365 := by
  have hmonth := sinceMarch_mem date.month_mem
  have hday := date.day_mem
  constructor
  · unfold dayOfYear daysBefore
    omega
  · by_cases hfebruary : date.month = 2
    · rw [hfebruary, daysIn_february] at hday
      rw [dayOfYear_february hfebruary]
      split at hday <;> omega
    · have := dayOfYear_lt hfebruary
      omega

/-- A year of 366 days is followed by a leap year. -/
theorem leap_of_dayOfYear {date : Date} (h : date.dayOfYear = 365) : isLeap (date.marchYear + 1) = true := by
  have hfebruary : date.month = 2 := by
    by_contra hne
    have := dayOfYear_lt hne
    omega
  have hday := date.day_mem
  rw [hfebruary, daysIn_february] at hday
  rw [dayOfYear_february hfebruary] at h
  rw [marchYear, hfebruary, if_pos (by decide), Int.sub_add_cancel]
  by_contra hleap
  rw [if_neg hleap] at hday
  omega

/-- The number of a day, by its era of 400 years and the year of the era. -/
theorem dayNumber_era (date : Date) : date.dayNumber + 719468 =
    146097 * (date.marchYear / 400) + (365 * (date.marchYear % 400) + date.marchYear % 400 / 4 -
      date.marchYear % 400 / 100 + date.dayOfYear) := by
  unfold dayNumber
  omega

theorem dayOfEra_lt (date : Date) : 0 ≤ 365 * (date.marchYear % 400) + date.marchYear % 400 / 4 -
      date.marchYear % 400 / 100 + date.dayOfYear ∧
    365 * (date.marchYear % 400) + date.marchYear % 400 / 4 - date.marchYear % 400 / 100 + date.dayOfYear < 146097 := by
  have hdoy := date.dayOfYear_mem
  obtain ⟨c, q, r, hc, hq, hr, hyear, -, -⟩ := era_split date.marchYear
  rw [hyear]
  omega

/-- The year of the era, from the day of the era. -/
theorem yearInEra_eq (date : Date) {doe : Int} (hdoe : doe = 365 * (date.marchYear % 400) +
      date.marchYear % 400 / 4 - date.marchYear % 400 / 100 + date.dayOfYear) :
    (doe - doe / 1460 + doe / 36524 - doe / 146096) / 365 = date.marchYear % 400 := by
  have hleap : date.dayOfYear = 365 → _ := fun h => (isLeap_iff _).mp (leap_of_dayOfYear h)
  obtain ⟨c, q, r, hc, hq, hr, hyear, hcentury, hfour⟩ := era_split date.marchYear
  have hdoe : doe = 36524 * c + 1461 * q + 365 * r + date.dayOfYear := by
    rw [hdoe, hyear]
    omega
  rw [hdoe, hyear]
  apply yearOfEra hc hq hr date.dayOfYear_mem
  intro h
  have := hleap h
  omega

/-- The month, from the day of the year. -/
theorem sinceMarch_eq (date : Date) : (5 * date.dayOfYear + 2) / 153 = sinceMarch date.month := by
  have hmonth := sinceMarch_mem date.month_mem
  have hday := date.day_mem
  have hle := date.day_le
  unfold dayOfYear
  unfold daysBefore at *
  omega

theorem day_eq (date : Date) : date.day = date.dayOfYear - daysBefore (sinceMarch date.month) + 1 := by
  unfold dayOfYear
  omega

theorem month_eq (date : Date) : date.month =
    if sinceMarch date.month < 10 then sinceMarch date.month + 3 else sinceMarch date.month - 9 := by
  have hmonth := date.month_mem
  unfold sinceMarch
  split <;> split <;> omega

theorem year_eq (date : Date) : date.year = if date.month ≤ 2 then date.marchYear + 1 else date.marchYear := by
  unfold marchYear
  split <;> omega

/-- A date has its number alone. -/
theorem dayNumber_injective : Function.Injective dayNumber := by
  intro a b h
  have ha := a.dayNumber_era
  have hb := b.dayNumber_era
  have ha' := a.dayOfEra_lt
  have hb' := b.dayOfEra_lt
  rw [h] at ha
  have hdoe : 365 * (a.marchYear % 400) + a.marchYear % 400 / 4 - a.marchYear % 400 / 100 + a.dayOfYear =
      365 * (b.marchYear % 400) + b.marchYear % 400 / 4 - b.marchYear % 400 / 100 + b.dayOfYear := by
    clear h
    generalize 365 * (a.marchYear % 400) + a.marchYear % 400 / 4 - a.marchYear % 400 / 100 + a.dayOfYear = x at *
    generalize 365 * (b.marchYear % 400) + b.marchYear % 400 / 4 - b.marchYear % 400 / 100 + b.dayOfYear = y at *
    omega
  have hyearOfEra : a.marchYear % 400 = b.marchYear % 400 := (a.yearInEra_eq hdoe.symm).symm.trans (b.yearInEra_eq rfl)
  rw [hyearOfEra] at hdoe ha
  have hdoy : a.dayOfYear = b.dayOfYear := by omega
  have hyear : a.marchYear = b.marchYear := by omega
  have hsince : sinceMarch a.month = sinceMarch b.month := by rw [← a.sinceMarch_eq, hdoy, b.sinceMarch_eq]
  have hmonth : a.month = b.month := by rw [a.month_eq, hsince, ← b.month_eq]
  have hday : a.day = b.day := by rw [a.day_eq, hdoy, hmonth, ← b.day_eq]
  have hyear : a.year = b.year := by rw [a.year_eq, hyear, hmonth, ← b.year_eq]
  cases a
  cases b
  cases hyear
  cases hmonth
  cases hday
  rfl

/-- The day of a number is reached from the epoch by so many steps, or the epoch from it. -/
theorem daysAfter_iff (n : Int) (date : Date) : date.DaysAfter n ↔ date.dayNumber = n := by
  unfold DaysAfter
  split
  · constructor
    · rintro rfl
      rw [dayNumber_iterate, dayNumber_epoch]
      omega
    · intro h
      apply dayNumber_injective
      rw [dayNumber_iterate, dayNumber_epoch, h]
      omega
  · constructor
    · intro h
      have hnumber := dayNumber_iterate (-n).toNat date
      rw [h, dayNumber_epoch] at hnumber
      omega
    · intro h
      apply dayNumber_injective
      rw [dayNumber_iterate, dayNumber_epoch, h]
      omega

/-- Later days come after earlier ones. -/
theorem before_of_lt {a b : Date} (h : a.dayNumber < b.dayNumber) : a.Before b := by
  have hb : next^[(b.dayNumber - a.dayNumber - 1).toNat + 1] a = b := by
    apply dayNumber_injective
    rw [dayNumber_iterate]
    omega
  rw [← hb]
  exact before_iterate _ a

/-- The form yyyy-mm-dd, for years with at most four digits. -/
def iso (date : Date) : String :=
  String.ofList (padded 4 date.year.toNat ++ '-' :: (padded 2 date.month.toNat ++ '-' :: padded 2 date.day.toNat))

/-- The years from 0 to 9999. -/
def FourDigits (date : Date) : Prop := 0 ≤ date.year ∧ date.year ≤ 9999

/-- The order of dates is that of their texts. -/
theorem iso_lt {a b : Date} (ha : a.FourDigits) (hb : b.FourDigits) (h : a.Before b) : a.iso < b.iso := by
  have hyears := hb.2
  have hmonths := a.month_mem
  have hmonths' := b.month_mem
  have hdays := a.day_mem
  have hdays' := b.day_mem
  have hmost := daysIn_mem a.year a.month
  have hmost' := daysIn_mem b.year b.month
  have hyear0 := ha.1
  rw [iso, iso, String.lt_iff, String.toList_ofList, String.toList_ofList]
  have hlength {n : Int} {width : Nat} (hwidth : 0 < width) (hn : n.toNat < 10 ^ width) :
      (padded width n.toNat).length = width := length_padded hwidth hn
  obtain hyear | ⟨hyear, hmonth | ⟨hmonth, hday⟩⟩ := h
  · apply append_lt_append
    · exact padded_lt (by decide) (by omega) (show b.year.toNat < 10000 by omega)
    · rw [hlength (by decide) (show a.year.toNat < 10000 by omega),
        hlength (by decide) (show b.year.toNat < 10000 by omega)]
  · rw [hyear]
    apply List.append_left_lt
    apply List.cons_lt_cons_iff.mpr (.inr ⟨rfl, _⟩)
    apply append_lt_append
    · exact padded_lt (by decide) (by omega) (show b.month.toNat < 100 by omega)
    · rw [hlength (by decide) (show a.month.toNat < 100 by omega),
        hlength (by decide) (show b.month.toNat < 100 by omega)]
  · rw [hyear, hmonth]
    apply List.append_left_lt
    apply List.cons_lt_cons_iff.mpr (.inr ⟨rfl, _⟩)
    apply List.append_left_lt
    apply List.cons_lt_cons_iff.mpr (.inr ⟨rfl, _⟩)
    exact padded_lt (by decide) (by omega) (show b.day.toNat < 100 by omega)

end Date

end Fusions.Library
