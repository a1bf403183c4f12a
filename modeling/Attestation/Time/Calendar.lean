/-
The Gregorian calendar from the year 2000 on, and dates as seconds
since 1970. The count of days before a date is a closed form: 365 for
each year, plus the leap years among them, plus a table for the months.
-/
namespace Attestation

structure DateTime where
  year : Nat
  month : Nat
  day : Nat
  hour : Nat
  minute : Nat
  second : Nat
deriving DecidableEq

namespace Calendar

/-- The seconds from 1970 to 2000-01-01T00:00:00Z. -/
def startOf2000 : Nat := 946684800

/-- The leap rule: every fourth year, but of the full hundreds only
every fourth. -/
def isLeap (year : Nat) : Bool :=
  year % 4 == 0 && (year % 100 != 0 || year % 400 == 0)

/-- The days of each month in a common year. -/
def monthLengths : List Nat :=
  [31, 28, 31, 30, 31, 30, 31, 31, 30, 31, 30, 31]

/-- The days of a common year before each month. -/
def monthOffsets : List Nat :=
  [0, 31, 59, 90, 120, 151, 181, 212, 243, 273, 304, 334]

def monthLength (year month : Nat) : Nat :=
  if month = 2 ∧ isLeap year then 29
  else monthLengths.getD (month - 1) 0

/-- The days from 2000-01-01 to the first of January of a year. As 2000
is itself a leap year, the leap days are counted rounding up. -/
def yearStart (year : Nat) : Nat :=
  let y := year - 2000
  y * 365 + (y + 3) / 4 - (y + 99) / 100 + (y + 399) / 400

/-- The days of a year before a month. -/
def monthStart (year month : Nat) : Nat :=
  monthOffsets.getD (month - 1) 0
    + if 2 < month ∧ isLeap year then 1 else 0

end Calendar

namespace DateTime

open Calendar

/-- The date exists, and the time of day lies within its 86400
seconds. -/
def IsValid (t : DateTime) : Prop :=
  (1 ≤ t.month ∧ t.month ≤ 12)
    ∧ (1 ≤ t.day ∧ t.day ≤ monthLength t.year t.month)
    ∧ t.hour < 24 ∧ t.minute < 60 ∧ t.second < 60

instance (t : DateTime) : Decidable t.IsValid :=
  inferInstanceAs (Decidable (_ ∧ _))

/-- The seconds from 1970 to a valid date of 2000 or later. -/
def toSeconds (t : DateTime) : Nat :=
  let days :=
    yearStart t.year + monthStart t.year t.month + (t.day - 1)
  startOf2000 + days * 86400 + t.hour * 3600 + t.minute * 60 + t.second

end DateTime

end Attestation
