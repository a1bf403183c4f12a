/-
UTCTime: thirteen ASCII characters YYMMDDHHMMSSZ, read as a date of
2000 to 2049. Two-digit years from 50 on mean the twentieth century and
are refused. The faults are looked for in a fixed order: the zone, the
digits, the year, the month, the day, the time of day.
-/
import Attestation.Bytes.Fixed
import Attestation.Refusal.Basic
import Attestation.Time.Calendar

namespace Attestation

/-- The characters of a UTCTime. -/
abbrev UtcTime := FixedBytes 13

namespace UtcTime

/-- The value of an ASCII digit. -/
def digit (b : UInt8) : Except Refusal Nat :=
  if 48 ≤ b ∧ b ≤ 57 then .ok (b.toNat - 48)
  else .error (.invalidTimestamp .digit)

/-- The two-digit number at a position. -/
def pair (raw : UtcTime) (i j : Fin 13) : Except Refusal Nat := do
  let tens ← digit (raw.get i)
  let ones ← digit (raw.get j)
  return tens * 10 + ones

/-- The date and time that the characters spell. -/
def dateTime (raw : UtcTime) : Except Refusal DateTime := do
  require (raw.get 12 = 90) (.invalidTimestamp .zone)
  let year ← raw.pair 0 1
  let month ← raw.pair 2 3
  let day ← raw.pair 4 5
  let hour ← raw.pair 6 7
  let minute ← raw.pair 8 9
  let second ← raw.pair 10 11
  let t : DateTime := ⟨2000 + year, month, day, hour, minute, second⟩
  require (year < 50) (.invalidTimestamp .year)
  require (1 ≤ month ∧ month ≤ 12) (.invalidTimestamp .month)
  require (1 ≤ day ∧ day ≤ Calendar.monthLength t.year month)
    (.invalidTimestamp .day)
  require (hour < 24 ∧ minute < 60 ∧ second < 60)
    (.invalidTimestamp .clock)
  return t

/-- The seconds from 1970 to the time that the characters spell. -/
def seconds (raw : UtcTime) : Except Refusal UInt64 := do
  let t ← raw.dateTime
  return UInt64.ofNat t.toSeconds

end UtcTime

end Attestation
