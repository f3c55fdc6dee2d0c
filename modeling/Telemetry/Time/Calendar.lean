/-!
# The calendar

Days of the Gregorian calendar, extended over all years from 1 on, counted from 0 for the first of
January of the year 1, which is a Monday. A date and its day number determine each other. Weeks
begin on Monday, and the first week of a year is the one that holds the fourth of January.
-/

namespace Telemetry.Time

/-- A date of the calendar. Months and days count from one. -/
structure Date where
  year : Nat
  month : Nat
  day : Nat
deriving DecidableEq, Repr

/-- Whether a year has a 29th of February. -/
def isLeap (year : Nat) : Bool :=
  year % 4 == 0 && (year % 100 != 0 || year % 400 == 0)

/-- The lengths of the months of a year. -/
def monthLengths (leap : Bool) : List Nat :=
  [31, if leap then 29 else 28, 31, 30, 31, 30, 31, 31, 30, 31, 30, 31]

/-- The number of days before the first of January of a year. -/
def daysBeforeYear (year : Nat) : Nat :=
  let past := year - 1
  past * 365 + past / 4 - past / 100 + past / 400

/-- The month and the day in it of a day counted from zero, months of these lengths. -/
def monthAndDay : (lengths : List Nat) → (day : Nat) → Nat × Nat
  | [], day => (1, day + 1)
  | length :: more, day =>
    if day < length then (1, day + 1)
    else
      let (month, rest) := monthAndDay more (day - length)
      (month + 1, rest)

namespace Date

/-- The date exists: the year is between 1 and 9999, and the month has that day. -/
def Valid (d : Date) : Prop :=
  1 ≤ d.year ∧ d.year ≤ 9999 ∧ 1 ≤ d.month ∧ d.month ≤ 12 ∧
    1 ≤ d.day ∧ d.day ≤ (monthLengths (isLeap d.year)).getD (d.month - 1) 0

instance (d : Date) : Decidable d.Valid :=
  inferInstanceAs (Decidable (_ ∧ _ ∧ _ ∧ _ ∧ _ ∧ _))

/-- The day number of a date. -/
def toDays (d : Date) : Nat :=
  daysBeforeYear d.year + ((monthLengths (isLeap d.year)).take (d.month - 1)).foldr (· + ·) 0 + (d.day - 1)

/-- The date with a day number. Years repeat after 400 years, of which the last of each four, but
not of the first three hundreds, is longer by a day. -/
def ofDays (n : Nat) : Date :=
  let cycle := n / 146097
  let inCycle := n % 146097
  let century := min 3 (inCycle / 36524)
  let inCentury := inCycle - century * 36524
  let four := inCentury / 1461
  let inFour := inCentury % 1461
  let single := min 3 (inFour / 365)
  let year := cycle * 400 + century * 100 + four * 4 + single + 1
  let (month, day) := monthAndDay (monthLengths (isLeap year)) (inFour - single * 365)
  ⟨year, month, day⟩

end Date

/-! ## Weeks -/

/-- The day number of the Monday of a year's first week. It can be before day 0. -/
def firstMonday (year : Nat) : Int :=
  let fourth := (daysBeforeYear year : Int) + 3
  fourth - fourth % 7

/-- The number of weeks of a year. -/
def weekCount (year : Nat) : Nat :=
  ((firstMonday (year + 1) - firstMonday year) / 7).toNat

/-- The day number of a weekday in a week of a year, if there is such a week and weekday. -/
def dayOfWeek? (year week weekday : Nat) : Option Int :=
  if 1 ≤ year ∧ 1 ≤ week ∧ week ≤ weekCount year ∧ 1 ≤ weekday ∧ weekday ≤ 7 then
    some (firstMonday year + (week - 1) * 7 + (weekday - 1))
  else none

end Telemetry.Time
