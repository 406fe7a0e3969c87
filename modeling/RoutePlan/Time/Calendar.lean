/-!
# The proleptic Gregorian calendar

Days are counted from 1970-01-01. The count works on years that start in March, so that a leap day
ends its year, and on cycles of 400 years, which have 146097 days each.
-/

namespace RoutePlan

/-- A calendar date; year 0 is the year before year 1. -/
structure Date where
  year : Int
  month : Nat
  day : Nat
  deriving DecidableEq

def isLeapYear (year : Int) : Bool := year % 4 = 0 ∧ (year % 100 ≠ 0 ∨ year % 400 = 0)

def daysInMonth (year : Int) (month : Nat) : Nat :=
  if month = 2 then (if isLeapYear year then 29 else 28)
  else if month = 4 ∨ month = 6 ∨ month = 9 ∨ month = 11 then 30
  else 31

namespace Date

/-- The first year that can be represented. -/
def firstYear : Int := -262143

/-- The last year that can be represented. -/
def lastYear : Int := 262142

/-- Whether month and day exist. -/
def isValid (d : Date) : Bool :=
  1 ≤ d.month ∧ d.month ≤ 12 ∧ 1 ≤ d.day ∧ d.day ≤ daysInMonth d.year d.month

/-- Days from 1970-01-01 to the date. -/
def toDays (d : Date) : Int :=
  let marchYear : Int := if d.month ≤ 2 then d.year - 1 else d.year
  let cycle := marchYear.fdiv 400
  let yearOfCycle := marchYear - cycle * 400
  let marchMonth : Int := if 2 < d.month then (d.month : Int) - 3 else d.month + 9
  let dayOfYear := (153 * marchMonth + 2).fdiv 5 + d.day - 1
  let dayOfCycle := yearOfCycle * 365 + yearOfCycle.fdiv 4 - yearOfCycle.fdiv 100 + dayOfYear
  cycle * 146097 + dayOfCycle - 719468

/-- The date a number of days after 1970-01-01. -/
def ofDays (days : Int) : Date :=
  let shifted := days + 719468
  let cycle := shifted.fdiv 146097
  let dayOfCycle := shifted - cycle * 146097
  let yearOfCycle :=
    (dayOfCycle - dayOfCycle.fdiv 1460 + dayOfCycle.fdiv 36524 - dayOfCycle.fdiv 146096).fdiv 365
  let dayOfYear := dayOfCycle - (365 * yearOfCycle + yearOfCycle.fdiv 4 - yearOfCycle.fdiv 100)
  let marchMonth := (5 * dayOfYear + 2).fdiv 153
  let day := dayOfYear - (153 * marchMonth + 2).fdiv 5 + 1
  let month := if marchMonth < 10 then marchMonth + 3 else marchMonth - 9
  let year := yearOfCycle + cycle * 400
  ⟨if month ≤ 2 then year + 1 else year, month.toNat, day.toNat⟩

end Date
end RoutePlan
