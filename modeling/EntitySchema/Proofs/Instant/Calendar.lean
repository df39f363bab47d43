import EntitySchema.Instant
import Mathlib.Order.Monotone.Basic
import Mathlib.Tactic.IntervalCases

/-! # The order of dates

The later of two days has the later date. Years are counted from March here, so that the day which
only some of them have is their last one, and 400 of them make an era of a fixed number of days. -/
namespace EntitySchema.Instant.Date

def Before (a b : Date) : Prop :=
  a.year < b.year ∨
    a.year = b.year ∧ (a.month < b.month ∨ a.month = b.month ∧ a.day < b.day)

def yearOf (dayOfEra : Nat) : Nat :=
  (dayOfEra - dayOfEra / 1460 + dayOfEra / 36524 - dayOfEra / 146096) / 365

def firstDay (year : Nat) : Nat := 365 * year + year / 4 - year / 100

/-- The date of a day of a year that begins in March. -/
def ofMarchYear (year : Int) (dayOfYear : Nat) : Date :=
  let fromMarch := (5 * dayOfYear + 2) / 153
  let month := if fromMarch < 10 then fromMarch + 3 else fromMarch - 9
  ⟨year + (if month ≤ 2 then 1 else 0), month, dayOfYear - (153 * fromMarch + 2) / 5 + 1⟩

/-- Eras are counted from the first of March of the year 0. -/
theorem ofDays_eq (days : Int) :
    ofDays days =
      ofMarchYear
        ((yearOf ((days + 719468) % 146097).toNat : Int) + (days + 719468) / 146097 * 400)
        (((days + 719468) % 146097).toNat - firstDay (yearOf ((days + 719468) % 146097).toNat)) :=
  rfl

/-! ### Years of an era -/

theorem yearOf_le {day : Nat} (h : day < 146097) : yearOf day ≤ 399 := by
  simp only [yearOf]
  omega

theorem yearOf_le_succ (day : Nat) : yearOf day ≤ yearOf (day + 1) := by
  simp only [yearOf]
  omega

theorem yearOf_mono : Monotone yearOf := monotone_nat_of_le_succ yearOf_le_succ

/-- A day lies in its year, which has 366 days at most. -/
theorem firstDay_yearOf {day : Nat} (h : day < 146097) :
    firstDay (yearOf day) ≤ day ∧ day ≤ firstDay (yearOf day) + 365 := by
  have hlow : 365 * yearOf day + day / 1460 + day / 146096 ≤ day + day / 36524 := by
    simp only [yearOf]
    omega
  have hhigh : day + day / 36524 ≤ 365 * yearOf day + day / 1460 + day / 146096 + 364 := by
    simp only [yearOf]
    omega
  simp only [firstDay]
  generalize yearOf day = year at *
  -- The century tells how many leap days are left out, and the last day of an era has one of its
  -- own.
  have hcentury : day / 36524 ≤ 4 := by omega
  generalize hc : day / 36524 = century at *
  interval_cases century
  case «4» =>
    obtain rfl : day = 146096 := by omega
    obtain rfl : year = 399 := by omega
    decide
  all_goals
    have hera : day / 146096 = 0 := by omega
    have hyear : year / 100 = day / 36524 := by omega
    omega

/-! ### Days of a year -/

theorem ofMarchYear_before_of_day {year : Int} {day later : Nat} (h : day < later)
    (hlast : later ≤ 365) : (ofMarchYear year day).Before (ofMarchYear year later) := by
  simp only [Before, ofMarchYear]
  split_ifs <;> omega

theorem ofMarchYear_before_of_year {year later : Int} {day other : Nat} (h : year < later)
    (hlast : day ≤ 365) : (ofMarchYear year day).Before (ofMarchYear later other) := by
  simp only [Before, ofMarchYear]
  split_ifs <;> omega

theorem ofMarchYear_bounds (year : Int) {day : Nat} (hlast : day ≤ 365) :
    (ofMarchYear year day).month ≤ 12 ∧ (ofMarchYear year day).day ≤ 31 := by
  simp only [ofMarchYear]
  split_ifs <;> omega

/-! ### Days since 1970 -/

/-- The later of two days has the later date. -/
theorem ofDays_before {day later : Int} (h : day < later) : (ofDays day).Before (ofDays later) := by
  rw [ofDays_eq, ofDays_eq]
  have hera : (day + 719468) / 146097 ≤ (later + 719468) / 146097 := by omega
  have hinEra : (day + 719468) / 146097 = (later + 719468) / 146097 →
      ((day + 719468) % 146097).toNat < ((later + 719468) % 146097).toNat := by omega
  have hlt : ((day + 719468) % 146097).toNat < 146097 := by omega
  have hlt' : ((later + 719468) % 146097).toNat < 146097 := by omega
  generalize (day + 719468) / 146097 = era, (later + 719468) / 146097 = era',
    ((day + 719468) % 146097).toNat = first, ((later + 719468) % 146097).toNat = second at *
  have hyear := yearOf_le hlt
  obtain ⟨hstart, hend⟩ := firstDay_yearOf hlt
  obtain ⟨hstart', hend'⟩ := firstDay_yearOf hlt'
  rcases hera.lt_or_eq with hbefore | rfl
  · exact ofMarchYear_before_of_year (by omega) (by omega)
  have hday := hinEra rfl
  rcases (yearOf_mono hday.le).lt_or_eq with hbefore | hsame
  · exact ofMarchYear_before_of_year (by omega) (by omega)
  · rw [hsame] at hstart ⊢
    exact ofMarchYear_before_of_day (by omega) (by omega)

theorem ofDays_bounds (day : Int) : (ofDays day).month ≤ 12 ∧ (ofDays day).day ≤ 31 := by
  have hlt : ((day + 719468) % 146097).toNat < 146097 := by omega
  obtain ⟨-, hlast⟩ := firstDay_yearOf hlt
  rw [ofDays_eq]
  exact ofMarchYear_bounds _ (by omega)

end EntitySchema.Instant.Date
