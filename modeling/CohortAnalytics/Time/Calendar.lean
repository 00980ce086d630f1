/-!
The Gregorian calendar, extended to the years 1 to 9999, as day numbers counted from the first of
January of year 1.
-/

namespace CohortAnalytics

-- Sums start from the zero of core, whatever else is in scope.
attribute [local instance (high)] Zero.ofOfNat0

structure Date where
  year : Nat
  month : Nat
  day : Nat
  deriving DecidableEq, Repr

namespace Date

def isLeap (year : Nat) : Bool := year % 4 = 0 && (year % 100 ≠ 0 || year % 400 = 0)

def daysInMonth (year month : Nat) : Nat :=
  if month = 2 then (if isLeap year then 29 else 28)
  else if month = 4 ∨ month = 6 ∨ month = 9 ∨ month = 11 then 30
  else 31

def daysBeforeYear (year : Nat) : Nat :=
  let y := year - 1
  365 * y + y / 4 - y / 100 + y / 400

def daysBeforeMonth (year month : Nat) : Nat :=
  ((List.range (month - 1)).map fun i => daysInMonth year (i + 1)).sum

/-- Days since the first day of year 1. -/
def number (d : Date) : Nat := daysBeforeYear d.year + daysBeforeMonth d.year d.month + (d.day - 1)

/-- The year that holds a day, and the day's place in it. Cycles of 400, 100, 4 and 1 years are
taken off in turn; the last day of a long cycle belongs to its last year. -/
def yearOf (n : Nat) : Nat × Nat :=
  let centuries := min (n % 146097 / 36524) 3
  let r := n % 146097 - centuries * 36524
  let years := min (r % 1461 / 365) 3
  (400 * (n / 146097) + 100 * centuries + 4 * (r / 1461) + years + 1, r % 1461 - years * 365)

def monthOf (year : Nat) : Nat → Nat → Nat → Nat × Nat
  | 0, month, left => (month, left)
  | months + 1, month, left =>
    if left < daysInMonth year month then (month, left)
    else monthOf year months (month + 1) (left - daysInMonth year month)

def ofNumber (n : Nat) : Date :=
  let (year, left) := yearOf n
  let (month, left) := monthOf year 11 1 left
  ⟨year, month, left + 1⟩

/-- Monday is 0. -/
def weekday (n : Nat) : Nat := n % 7

/-- The Monday of the first week of a year: the week that holds its first Thursday. -/
def firstMonday (year : Nat) : Int :=
  let first := daysBeforeYear year
  let monday : Int := first - weekday first
  if weekday first > 3 then monday + 7 else monday

/-- A year has 53 weeks if it starts on a Thursday, or on a Wednesday and is a leap year. -/
def weeksInYear (year : Nat) : Nat :=
  let first := weekday (daysBeforeYear year)
  if first = 3 ∨ (first = 2 ∧ isLeap year) then 53 else 52

/-- The number of a day named by its week; it may lie outside the years of the calendar. -/
def numberOfWeekDay (year week day : Nat) : Int :=
  firstMonday year + 7 * (week - 1) + (day - 1)

end Date

end CohortAnalytics
