import Mathlib.Algebra.Order.Ring.Int
import Mathlib.Tactic.IntervalCases

/-!
The proleptic Gregorian calendar. Years are counted from 1 March, so that the
leap day is the last day of its year; a period of 400 years falls into
centuries, groups of four years and years, of which the last of each kind may be
one day longer.
-/

namespace OrionQueue.Calendar

structure Date where
  year : Int
  month : Int
  day : Int
  deriving DecidableEq

/-- Days from 0000-03-01 to 1970-01-01. -/
def epoch : Int := 719468

/-- The year that starts on 1 March and the day in it, from days since 0000-03-01. -/
def marchYear (days : Int) : Int × Int :=
  let inPeriod := days % 146097
  let century := min (inPeriod / 36524) 3
  let inCentury := inPeriod - 36524 * century
  let inQuad := inCentury % 1461
  let yearOfQuad := min (inQuad / 365) 3
  (400 * (days / 146097) + 100 * century + 4 * (inCentury / 1461) + yearOfQuad,
    inQuad - 365 * yearOfQuad)

/-- Days from 0000-03-01 to 1 March of a year. -/
def yearStart (year : Int) : Int := 365 * year + year / 4 - year / 100 + year / 400

/-- Days from 1 March to the first of a month, which is counted from March. -/
def monthStart (month : Int) : Int := (153 * month + 2) / 5

/-- The date of a day, counted from 1970-01-01. -/
def ofDays (days : Int) : Date :=
  let (year, dayOfYear) := marchYear (days + epoch)
  let month := (5 * dayOfYear + 2) / 153
  let day := dayOfYear - monthStart month + 1
  if month < 10 then ⟨year, month + 3, day⟩ else ⟨year + 1, month - 9, day⟩

def toDays (date : Date) : Int :=
  if date.month ≤ 2 then
    yearStart (date.year - 1) + monthStart (date.month + 9) + date.day - 1 - epoch
  else yearStart date.year + monthStart (date.month - 3) + date.day - 1 - epoch

def isLeap (year : Int) : Bool := year % 4 = 0 && (year % 100 ≠ 0 || year % 400 = 0)

def daysIn (month year : Int) : Int :=
  if month = 2 then if isLeap year then 29 else 28
  else if month = 4 ∨ month = 6 ∨ month = 9 ∨ month = 11 then 30
  else 31

def Valid (date : Date) : Prop :=
  1 ≤ date.month ∧ date.month ≤ 12 ∧ 1 ≤ date.day ∧ date.day ≤ daysIn date.month date.year

/-- The year and the day in it add up, and a day 365 follows only on a leap day. -/
theorem marchYear_spec {days year dayOfYear : Int} (split : marchYear days = (year, dayOfYear)) :
    yearStart year + dayOfYear = days ∧ 0 ≤ dayOfYear ∧ dayOfYear ≤ 365 ∧
      (dayOfYear = 365 → isLeap (year + 1) = true) := by
  obtain ⟨period, inPeriod, isDays, low, high⟩ : ∃ period inPeriod : Int,
      days = 146097 * period + inPeriod ∧ 0 ≤ inPeriod ∧ inPeriod < 146097 :=
    ⟨days / 146097, days % 146097, by omega, by omega, by omega⟩
  have whole : days / 146097 = period := by omega
  have part : days % 146097 = inPeriod := by omega
  unfold marchYear at split
  simp only [whole, part, Prod.mk.injEq] at split
  generalize isCentury : min (inPeriod / 36524) 3 = century at split
  generalize isQuad : (inPeriod - 36524 * century) / 1461 = quad at split
  generalize isRest : (inPeriod - 36524 * century) % 1461 = rest at split
  generalize isYear : min (rest / 365) 3 = yearOfQuad at split
  obtain ⟨rfl, rfl⟩ := split
  have century_range : 0 ≤ century ∧ century ≤ 3 := by omega
  have quad_range : 0 ≤ quad ∧ quad ≤ 24 := by omega
  have year_range : 0 ≤ yearOfQuad ∧ yearOfQuad ≤ 3 := by omega
  have by4 : (400 * period + 100 * century + 4 * quad + yearOfQuad) / 4 =
      100 * period + 25 * century + quad := by omega
  have by100 : (400 * period + 100 * century + 4 * quad + yearOfQuad) / 100 =
      4 * period + century := by omega
  have by400 : (400 * period + 100 * century + 4 * quad + yearOfQuad) / 400 = period := by omega
  refine ⟨?_, by omega, by omega, fun leap => ?_⟩
  · rw [yearStart, by4, by100, by400]
    omega
  · have last : yearOfQuad = 3 := by omega
    have long : quad ≠ 24 ∨ century = 3 := by omega
    simp only [isLeap, Bool.and_eq_true, Bool.or_eq_true, decide_eq_true_eq]
    omega

theorem toDays_ofDays (days : Int) : toDays (ofDays days) = days := by
  obtain ⟨year, dayOfYear, split⟩ : ∃ year dayOfYear, marchYear (days + epoch) = (year, dayOfYear) :=
    ⟨_, _, rfl⟩
  obtain ⟨sum, low, high, _⟩ := marchYear_spec split
  simp only [ofDays, split]
  split
  case isTrue early =>
    have late : ¬ (5 * dayOfYear + 2) / 153 + 3 ≤ 2 := by omega
    simp only [toDays, if_neg late, add_sub_cancel_right]
    omega
  case isFalse late =>
    have early : (5 * dayOfYear + 2) / 153 - 9 ≤ 2 := by omega
    simp only [toDays, if_pos early, add_sub_cancel_right, sub_add_cancel]
    omega

theorem ofDays_valid (days : Int) : Valid (ofDays days) := by
  obtain ⟨year, dayOfYear, split⟩ : ∃ year dayOfYear, marchYear (days + epoch) = (year, dayOfYear) :=
    ⟨_, _, rfl⟩
  obtain ⟨_, low, high, leap⟩ := marchYear_spec split
  simp only [ofDays, split, monthStart]
  generalize isMonth : (5 * dayOfYear + 2) / 153 = month
  have range : 0 ≤ month ∧ month ≤ 11 := by omega
  obtain ⟨first, last⟩ := range
  -- Each month has a fixed first day; only the length of February depends on the year.
  by_cases february : month = 11
  · subst february
    have short : dayOfYear - (153 * 11 + 2) / 5 + 1 ≤ 29 := by omega
    rw [if_neg (by decide)]
    unfold Valid daysIn
    simp only [Int.reduceSub, Int.reduceLE, true_and, if_true]
    refine ⟨by omega, ?_⟩
    by_cases full : dayOfYear = 365
    · rw [leap full, if_pos rfl]
      exact short
    · split <;> omega
  · unfold Valid daysIn
    interval_cases month <;> simp <;> omega

end OrionQueue.Calendar
