/-!
# The civil calendar

Days are numbered from 1 January 1970. A year is counted from 1 March inside the arithmetic, so that
the leap day is its last day, and four hundred years make one cycle of 146097 days.
-/

namespace Gatehouse.Time

structure Date where
  year : Int
  month : Nat
  day : Nat
  deriving Repr, DecidableEq

def isLeapYear (year : Int) : Bool :=
  year % 4 = 0 && (year % 100 != 0 || year % 400 = 0)

def daysInMonth (year : Int) (month : Nat) : Nat :=
  if month = 2 then (if isLeapYear year then 29 else 28)
  else if month = 4 ∨ month = 6 ∨ month = 9 ∨ month = 11 then 30
  else 31

namespace Date

def Valid (d : Date) : Prop :=
  1 ≤ d.month ∧ d.month ≤ 12 ∧ 1 ≤ d.day ∧ d.day ≤ daysInMonth d.year d.month

instance (d : Date) : Decidable d.Valid := by
  unfold Valid
  infer_instance

def toDayNumber (d : Date) : Int :=
  let year := if d.month ≤ 2 then d.year - 1 else d.year
  let cycle := year.fdiv 400
  let inCycle := year - cycle * 400
  let month : Int := if d.month ≤ 2 then d.month + 9 else d.month - 3
  let inYear := (153 * month + 2) / 5 + d.day - 1
  cycle * 146097 + (inCycle * 365 + inCycle / 4 - inCycle / 100 + inYear) - 719468

/--
The date of a day number. A cycle holds four centuries of 36524 days and one day more, a century
periods of 1461 days, a period four years of 365 days and one day more: the last century and the last
year of a period take the extra day.
-/
def ofDayNumber (n : Int) : Date :=
  let shifted := n + 719468
  let cycle := shifted.fdiv 146097
  let inCycle := shifted - cycle * 146097
  let century := min (inCycle / 36524) 3
  let inCentury := inCycle - century * 36524
  let period := inCentury / 1461
  let inPeriod := inCentury - period * 1461
  let offset := min (inPeriod / 365) 3
  let inYear := inPeriod - offset * 365
  let year := cycle * 400 + century * 100 + period * 4 + offset
  let month := (5 * inYear + 2) / 153
  let day := inYear - (153 * month + 2) / 5 + 1
  if month < 10 then
    ⟨year, (month + 3).toNat, day.toNat⟩
  else
    ⟨year + 1, (month - 9).toNat, day.toNat⟩

end Date

end Gatehouse.Time
