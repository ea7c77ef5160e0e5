import Gatehouse.Time.Instant

/-! # Day numbers and dates

The date of a day number is a date of the calendar, and the day number of that date is the one it came
from. Both follow from one count: a day is so many cycles, centuries, periods of four years and years
after a first of March, and then so many days into a year that begins in March.
-/

namespace Gatehouse.Time.Date

/-- The date so many days into a year that begins on the first of March. -/
def ofMarch (year inYear : Int) : Date :=
  let month := (5 * inYear + 2) / 153
  let day := inYear - (153 * month + 2) / 5 + 1
  if month < 10 then
    ⟨year, (month + 3).toNat, day.toNat⟩
  else
    ⟨year + 1, (month - 9).toNat, day.toNat⟩

/-- A day counted from the first of March at the start of a cycle. -/
structure Counted (n cycle century period offset inYear : Int) : Prop where
  sum : n + 719468 = cycle * 146097 + century * 36524 + period * 1461 + offset * 365 + inYear
  century_bounds : 0 ≤ century ∧ century ≤ 3
  period_bounds : 0 ≤ period ∧ period ≤ 24
  offset_bounds : 0 ≤ offset ∧ offset ≤ 3
  inYear_bounds : 0 ≤ inYear ∧ inYear ≤ 365
  /-- The extra day of a year is that of the last year of a period, -/
  extra_offset : inYear = 365 → offset = 3
  /-- and at the end of a century that of the last century only. -/
  extra_century : inYear = 365 → period = 24 → century = 3

theorem ofDayNumber_eq (n : Int) : ∃ cycle century period offset inYear : Int,
    Counted n cycle century period offset inYear ∧
      ofDayNumber n = ofMarch (cycle * 400 + century * 100 + period * 4 + offset) inYear := by
  have hfdiv : (n + 719468).fdiv 146097 = (n + 719468) / 146097 :=
    Int.fdiv_eq_ediv_of_nonneg _ (by decide)
  obtain ⟨inCycle, hcycle⟩ : ∃ c, c = n + 719468 - (n + 719468).fdiv 146097 * 146097 := ⟨_, rfl⟩
  obtain ⟨century, hcentury⟩ : ∃ c, c = min (inCycle / 36524) 3 := ⟨_, rfl⟩
  obtain ⟨inCentury, hinCentury⟩ : ∃ c, c = inCycle - century * 36524 := ⟨_, rfl⟩
  obtain ⟨period, hperiod⟩ : ∃ p, p = inCentury / 1461 := ⟨_, rfl⟩
  obtain ⟨inPeriod, hinPeriod⟩ : ∃ p, p = inCentury - period * 1461 := ⟨_, rfl⟩
  obtain ⟨offset, hoffset⟩ : ∃ o, o = min (inPeriod / 365) 3 := ⟨_, rfl⟩
  obtain ⟨inYear, hinYear⟩ : ∃ y, y = inPeriod - offset * 365 := ⟨_, rfl⟩
  refine ⟨(n + 719468).fdiv 146097, century, period, offset, inYear, ?_, ?_⟩
  · -- each part is what is left of the one before, so its bounds come first
    have cycle_bounds : 0 ≤ inCycle ∧ inCycle ≤ 146096 := by omega
    have century_bounds : 0 ≤ century ∧ century ≤ 3 := by omega
    have inCentury_bounds : 0 ≤ inCentury ∧ inCentury ≤ 36524 ∧ (inCentury = 36524 → century = 3) := by
      omega
    have inPeriod_bounds : 0 ≤ inPeriod ∧ inPeriod ≤ 1460 := by omega
    constructor <;> omega
  · subst hinYear hoffset hinPeriod hperiod hinCentury hcentury hcycle
    rfl

section Counting

variable {n cycle century period offset inYear : Int}

/-- The year whose February the extra day ends is a leap year. -/
theorem Counted.isLeapYear (h : Counted n cycle century period offset inYear) (extra : inYear = 365) :
    isLeapYear (cycle * 400 + century * 100 + period * 4 + offset + 1) = true := by
  have ho := h.extra_offset extra
  have hc := h.extra_century extra
  have hb := h.century_bounds
  have hp := h.period_bounds
  simp only [Gatehouse.Time.isLeapYear, Bool.and_eq_true, Bool.or_eq_true, bne_iff_ne, decide_eq_true_eq]
  omega

theorem Counted.valid (h : Counted n cycle century period offset inYear) :
    (ofMarch (cycle * 400 + century * 100 + period * 4 + offset) inYear).Valid := by
  have hy := h.inYear_bounds
  have leap := h.isLeapYear
  generalize cycle * 400 + century * 100 + period * 4 + offset = year at leap
  obtain ⟨month, hm⟩ : ∃ m, m = (5 * inYear + 2) / 153 := ⟨_, rfl⟩
  simp only [ofMarch, ← hm]
  split
  · rename_i hlt
    have cases : month = 0 ∨ month = 1 ∨ month = 2 ∨ month = 3 ∨ month = 4 ∨ month = 5 ∨ month = 6 ∨
        month = 7 ∨ month = 8 ∨ month = 9 := by omega
    rcases cases with rfl | rfl | rfl | rfl | rfl | rfl | rfl | rfl | rfl | rfl <;>
      simp [Valid, daysInMonth] <;> omega
  · have cases : month = 10 ∨ month = 11 := by omega
    rcases cases with rfl | rfl
    · simp [Valid, daysInMonth]
      omega
    · by_cases extra : inYear = 365
      · simp [Valid, daysInMonth, leap extra]
        omega
      · simp [Valid, daysInMonth]
        split <;> omega

/-- The number of a date counted from March is read off the year and the day in it. -/
theorem toDayNumber_ofMarch (year : Int) (h : 0 ≤ inYear ∧ inYear ≤ 365) :
    (ofMarch year inYear).toDayNumber =
      year / 400 * 146097 +
        ((year - year / 400 * 400) * 365 + (year - year / 400 * 400) / 4 -
          (year - year / 400 * 400) / 100 + inYear) - 719468 := by
  have hfdiv : ∀ y : Int, y.fdiv 400 = y / 400 := fun y => Int.fdiv_eq_ediv_of_nonneg y (by decide)
  obtain ⟨month, hm⟩ : ∃ m, m = (5 * inYear + 2) / 153 := ⟨_, rfl⟩
  simp only [ofMarch, ← hm]
  split
  · have late : ¬ (month + 3).toNat ≤ 2 := by omega
    simp only [toDayNumber, late, if_false, hfdiv]
    omega
  · have early : (month - 9).toNat ≤ 2 := by omega
    have back : year + 1 - 1 = year := by omega
    simp only [toDayNumber, early, if_true, hfdiv, back]
    omega

theorem Counted.toDayNumber_eq (h : Counted n cycle century period offset inYear) :
    (ofMarch (cycle * 400 + century * 100 + period * 4 + offset) inYear).toDayNumber = n := by
  have hc := h.century_bounds
  have hp := h.period_bounds
  have ho := h.offset_bounds
  have sum := h.sum
  rw [toDayNumber_ofMarch _ h.inYear_bounds]
  have cycles : (cycle * 400 + century * 100 + period * 4 + offset) / 400 = cycle := by omega
  have rest : cycle * 400 + century * 100 + period * 4 + offset - cycle * 400 =
      century * 100 + period * 4 + offset := by omega
  have leaps : (century * 100 + period * 4 + offset) / 4 = century * 25 + period := by omega
  have centuries : (century * 100 + period * 4 + offset) / 100 = century := by omega
  rw [cycles, rest, leaps, centuries]
  omega

/-- The year of a date is that of its cycle, give or take. -/
theorem Counted.year_bounds (h : Counted n cycle century period offset inYear) :
    cycle * 400 ≤ (ofMarch (cycle * 400 + century * 100 + period * 4 + offset) inYear).year ∧
      (ofMarch (cycle * 400 + century * 100 + period * 4 + offset) inYear).year ≤ cycle * 400 + 400 := by
  have hc := h.century_bounds
  have hp := h.period_bounds
  have ho := h.offset_bounds
  simp only [ofMarch]
  split <;> simp only <;> omega

end Counting

theorem valid_ofDayNumber (n : Int) : (ofDayNumber n).Valid := by
  obtain ⟨_, _, _, _, _, counted, he⟩ := ofDayNumber_eq n
  rw [he]
  exact counted.valid

theorem toDayNumber_ofDayNumber (n : Int) : (ofDayNumber n).toDayNumber = n := by
  obtain ⟨_, _, _, _, _, counted, he⟩ := ofDayNumber_eq n
  rw [he]
  exact counted.toDayNumber_eq

/-- A date with a year of four digits has a day number of at most seven. -/
theorem dayNumber_bounds {n : Int} (h : 0 ≤ (ofDayNumber n).year ∧ (ofDayNumber n).year ≤ 9999) :
    -1000000 ≤ n ∧ n ≤ 3000000 := by
  obtain ⟨cycle, century, period, offset, inYear, counted, he⟩ := ofDayNumber_eq n
  rw [he] at h
  have hy := counted.year_bounds
  have sum := counted.sum
  have hc := counted.century_bounds
  have hp := counted.period_bounds
  have ho := counted.offset_bounds
  have hi := counted.inYear_bounds
  omega

end Gatehouse.Time.Date
