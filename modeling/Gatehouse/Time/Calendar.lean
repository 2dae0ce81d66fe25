/-! The Gregorian calendar as day numbers, for all years. Day 0 is 1970-01-01. Years are counted
from March inside the computation, so that a leap day is the last of its year.
-/

namespace Gatehouse

structure Date where
  year : Int
  month : Nat
  day : Nat
deriving DecidableEq, Repr

namespace Date

def isLeapYear (year : Int) : Bool :=
  (year % 4 == 0 && year % 100 != 0) || year % 400 == 0

def daysInMonth (year : Int) (month : Nat) : Nat :=
  if month = 2 then (if isLeapYear year then 29 else 28)
  else if month = 4 ∨ month = 6 ∨ month = 9 ∨ month = 11 then 30
  else 31

/-- The date is one that the calendar has. -/
def IsValid (date : Date) : Prop :=
  1 ≤ date.month ∧ date.month ≤ 12 ∧ 1 ≤ date.day ∧ date.day ≤ daysInMonth date.year date.month

instance (date : Date) : Decidable date.IsValid :=
  inferInstanceAs (Decidable (_ ∧ _ ∧ _ ∧ _))

/-- The year that begins in March and holds a month. -/
def marchYear (year : Int) (month : Nat) : Int :=
  if month ≤ 2 then year - 1 else year

/-- A month's place in the year that begins in March. -/
def marchMonth (month : Nat) : Nat :=
  if month ≤ 2 then month + 9 else month - 3

/-- The number of a day: 365 for each full year, the leap days among them, and the day's place
in its own year.
-/
def dayNumber (date : Date) : Int :=
  let year := marchYear date.year date.month
  let inYear : Nat := (153 * marchMonth date.month + 2) / 5 + (date.day - 1)
  365 * year + year / 4 - year / 100 + year / 400 + inYear - 719468

/-- The date of a day number, by taking off whole cycles of 400, 100, 4 and 1 years; the last
century of 400 years and the last year of four are a day longer than the others.
-/
def ofDayNumber (number : Int) : Date :=
  let shifted := number + 719468
  let cycle := shifted / 146097
  let inCycle := (shifted % 146097).toNat
  let century := min (inCycle / 36524) 3
  let inCentury := inCycle - century * 36524
  let group := inCentury / 1461
  let inGroup := inCentury - group * 1461
  let single := min (inGroup / 365) 3
  let inYear := inGroup - single * 365
  let monthPlace := (5 * inYear + 2) / 153
  let day := inYear - (153 * monthPlace + 2) / 5 + 1
  let year := 400 * cycle + (100 * century + 4 * group + single : Nat)
  if monthPlace < 10 then ⟨year, monthPlace + 3, day⟩ else ⟨year + 1, monthPlace - 9, day⟩

end Date

end Gatehouse
