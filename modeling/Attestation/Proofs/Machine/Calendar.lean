/-
The calendar on a machine. The closed form for the days before a year
takes a difference in the middle of a sum, months are looked up in two
tables at one less than their number, and the seconds are a sum of
products. Each of these is a place where a machine has to stop if the
operands are not what they should be.

No step of it leaves the range of words unless the result does
(`toEpoch_eq`), and what keeps the result in range was checked before: a
date that UTCTime spells exists and lies in the years from 2000 to 2049
(`Dated`). The general statement has a bound on the result and none on
the date, since a sum of natural numbers is at least as large as each of
its parts; so the operands need no bounds of their own, except for the
year, which stands in front of a difference.

Two facts about the calendar are needed beside it, and are all that is
used: how far the days before a year are from a plain count of 365 for
each (`yearStart_bounds`), and that the tables have no entry above a
bound, which holds of the entries one by one.

The characters come first in the order of a machine, and last here. A
digit is a difference of two bytes with a comparison before it, and a
pair of them is at most 99; the library reads the same pairs at fixed
places, so the two readings agree character by character
(`pair_agrees`).
-/
import Attestation.Proofs.Machine.Checked
import Attestation.Time.UtcTime
import Mathlib.Data.List.GetD

namespace Attestation

namespace Machine

open Calendar

-- ======================================================== operations

def daysInMonth (year month : Nat) : Checked Nat :=
  if month = 2 ∧ isLeap year then return 29
  else do
    let place ← sub month 1
    index monthLengths place

def daysBeforeYear (year : Nat) : Checked Nat := do
  let y ← sub year 2000
  let common ← mul y 365
  let fourths ← add y 3
  let days ← add common (fourths / 4)
  let hundredths ← add y 99
  let days ← sub days (hundredths / 100)
  let fourHundredths ← add y 399
  add days (fourHundredths / 400)

/-- The days from 2000-01-01 to a date. -/
def daysBefore (t : DateTime) : Checked Nat := do
  let days ← daysBeforeYear t.year
  let place ← sub t.month 1
  let offset ← index monthOffsets place
  let days ← add days offset
  let past ← sub t.day 1
  let days ← add days past
  if 2 < t.month ∧ isLeap t.year then add days 1 else return days

def toEpoch (t : DateTime) : Checked Nat := do
  let days ← daysBefore t
  let seconds ← mul days 86400
  let seconds ← add startOf2000 seconds
  let hours ← mul t.hour 3600
  let seconds ← add seconds hours
  let minutes ← mul t.minute 60
  let seconds ← add seconds minutes
  add seconds t.second

/-- The two-digit number at a place among the pairs. -/
def pair (raw : UtcTime) (i : Nat) : Run Nat := do
  let first ← mul 2 i
  let tens ← index raw.toList first
  let tens ← UtcTime.digit tens
  let first ← mul 2 i
  let second ← add first 1
  let ones ← index raw.toList second
  let ones ← UtcTime.digit ones
  let tens ← mul tens 10
  add tens ones

/-- The length of the month is looked up only for a day that may be
one. -/
def dateTime (raw : UtcTime) : Run DateTime := do
  let zone ← index raw.toList 12
  require (zone = 90) (Refusal.invalidTimestamp .zone)
  let year ← pair raw 0
  let month ← pair raw 1
  let day ← pair raw 2
  let hour ← pair raw 3
  let minute ← pair raw 4
  let second ← pair raw 5
  require (year < 50) (Refusal.invalidTimestamp .year)
  let year ← add 2000 year
  require (1 ≤ month ∧ month ≤ 12) (Refusal.invalidTimestamp .month)
  require (1 ≤ day) (Refusal.invalidTimestamp .day)
  let length ← daysInMonth year month
  require (day ≤ length) (Refusal.invalidTimestamp .day)
  require (hour < 24 ∧ minute < 60 ∧ second < 60)
    (Refusal.invalidTimestamp .clock)
  return ⟨year, month, day, hour, minute, second⟩

def seconds (raw : UtcTime) : Run UInt64 := do
  let t ← dateTime raw
  let seconds ← toEpoch t
  return UInt64.ofNat seconds

-- ====================================================== the calendar

variable {year month : Nat} {t : DateTime}

/-- Within a table, looking up by an index needs no default. -/
theorem index_getD {table : List Nat} {i : Nat} (default : Nat)
    (h : i < table.length) : index table i = .ok (table.getD i default) := by
  rw [index_eq h, List.getD_eq_getElem _ _ h]
  rfl

/-- What is looked up in a table is no more than its largest entry. -/
theorem getD_le {table : List Nat} {bound : Nat}
    (h : ∀ n ∈ table, n ≤ bound) (i : Nat) : table.getD i 0 ≤ bound := by
  by_cases hplace : i < table.length
  · rw [List.getD_eq_getElem _ _ hplace]
    exact h _ (List.getElem_mem hplace)
  · rw [List.getD_eq_default _ _ (Nat.not_lt.1 hplace)]
    exact Nat.zero_le bound

/-- The length of a month is looked up inside the table. -/
theorem daysInMonth_eq (hmonth : 1 ≤ month ∧ month ≤ 12) :
    daysInMonth year month = .ok (monthLength year month) := by
  have hplace : month - 1 < monthLengths.length := by
    show month - 1 < 12
    omega
  unfold daysInMonth monthLength
  split
  · rfl
  · rw [sub_eq hmonth.1, ok_bind, index_getD 0 hplace]

/-- No month is longer than 31 days. -/
theorem monthLength_le (year month : Nat) : monthLength year month ≤ 31 := by
  have htable : ∀ n ∈ monthLengths, n ≤ 31 := by decide
  unfold monthLength
  split
  · omega
  · exact getD_le htable (month - 1)

/-- Where the products fit, the difference in the middle of the sum is
none below zero. -/
theorem daysBeforeYear_eq (hyear : 2000 ≤ year) (hfits : year < 2 ^ 40) :
    daysBeforeYear year = .ok (yearStart year) := by
  obtain ⟨y, rfl⟩ := Nat.exists_eq_add_of_le hyear
  have hword : wordSize = 2 ^ 64 := rfl
  unfold daysBeforeYear yearStart
  rw [sub_eq hyear, ok_bind, Nat.add_sub_cancel_left]
  simp (disch := omega) only [add_eq, sub_eq, mul_eq, ok_bind]

/-- There are at least 365 days in a year, and at most 366. -/
theorem yearStart_bounds (year : Nat) :
    (year - 2000) * 365 ≤ yearStart year
      ∧ yearStart year ≤ (year - 2000) * 366 + 1 := by
  unfold yearStart
  dsimp only
  omega

/-- No month begins after 335 days. -/
theorem monthStart_le (year month : Nat) : monthStart year month ≤ 335 := by
  have htable : ∀ n ∈ monthOffsets, n ≤ 334 := by decide
  have hoffset := getD_le htable (month - 1)
  unfold monthStart
  split
  · omega
  · omega

-- ========================================================= the dates

variable (hvalid : t.IsValid) (hyear : 2000 ≤ t.year)

include hvalid hyear

/-- The days before a date are a sum that fits. -/
theorem daysBefore_eq (hfits : t.year < 2 ^ 40) :
    daysBefore t
      = .ok (yearStart t.year + monthStart t.year t.month + (t.day - 1)) := by
  obtain ⟨hmonth, hday, -⟩ := hvalid
  have hplace : t.month - 1 < monthOffsets.length := by
    show t.month - 1 < 12
    omega
  have hyears := (yearStart_bounds t.year).2
  have hmonths := monthStart_le t.year t.month
  have hlength := monthLength_le t.year t.month
  have hword : wordSize = 2 ^ 64 := rfl
  unfold daysBefore
  rw [daysBeforeYear_eq hyear hfits, ok_bind, sub_eq hmonth.1, ok_bind,
    index_getD 0 hplace, ok_bind]
  unfold monthStart at hmonths ⊢
  generalize monthOffsets.getD (t.month - 1) 0 = offset at hmonths ⊢
  split at hmonths
  · rename_i hleap
    simp (disch := omega) only [add_eq, sub_eq, ok_bind, if_pos hleap]
    congr 1
    omega
  · rename_i hleap
    simp (disch := omega) only [add_eq, sub_eq, ok_bind, if_neg hleap]
    rfl

/-- No step overflows unless the result does. -/
theorem toEpoch_eq (hfits : t.toSeconds < wordSize) :
    toEpoch t = .ok t.toSeconds := by
  have hyears := (yearStart_bounds t.year).1
  have hword : wordSize = 2 ^ 64 := rfl
  have hstart : startOf2000 = 946684800 := rfl
  unfold DateTime.toSeconds at hfits
  dsimp only at hfits
  have hyearFits : t.year < 2 ^ 40 := by omega
  unfold toEpoch DateTime.toSeconds
  rw [daysBefore_eq hvalid hyear hyearFits, ok_bind]
  dsimp only
  generalize yearStart t.year + monthStart t.year t.month + (t.day - 1)
    = days at hfits ⊢
  rw [mul_eq (by omega), ok_bind, add_eq (by omega), ok_bind,
    mul_eq (by omega), ok_bind, add_eq (by omega), ok_bind,
    mul_eq (by omega), ok_bind, add_eq (by omega), ok_bind,
    add_eq (by omega)]

omit hvalid hyear

/-- A date that exists, in the years that UTCTime spells. -/
structure Dated (t : DateTime) : Prop where
  valid : t.IsValid
  from_2000 : 2000 ≤ t.year
  before_2050 : t.year < 2050

/-- A date that was checked has its seconds. -/
theorem Dated.toEpoch_eq (h : Dated t) :
    toEpoch t = .ok t.toSeconds := by
  refine Machine.toEpoch_eq h.valid h.from_2000 ?_
  obtain ⟨-, hday, hhour, hminute, hsecond⟩ := h.valid
  have hyears := (yearStart_bounds t.year).2
  have hmonths := monthStart_le t.year t.month
  have hlength := monthLength_le t.year t.month
  have hword : wordSize = 2 ^ 64 := rfl
  have hstart : startOf2000 = 946684800 := rfl
  have hlast := h.before_2050
  unfold DateTime.toSeconds
  dsimp only
  omega

/-- A month that is none is looked up nowhere. -/
example : toEpoch ⟨2000, 0, 1, 0, 0, 0⟩ = .error .overflow :=
  rfl

-- ==================================================== the characters

/-- A digit is at most nine. -/
theorem digit_le {b : UInt8} {d : Nat} (h : UtcTime.digit b = .ok d) :
    d ≤ 9 := by
  unfold UtcTime.digit at h
  split at h
  · rename_i hb
    have hle : b.toNat ≤ 57 := UInt8.le_iff_toNat_le.1 hb.2
    cases h
    omega
  · cases h

/-- Two digits are read alike, and their number fits. -/
theorem pair_agrees (raw : UtcTime) {k : Nat} {i j : Fin 13}
    (hi : i.val = 2 * k) (hj : j.val = 2 * k + 1) :
    Agrees Eq (pair raw k) (raw.pair i j) := by
  have hword : wordSize = 2 ^ 64 := rfl
  have hplace := j.isLt
  have hfirst : mul 2 k = .ok i.val := by
    rw [mul_eq (by omega), hi]
  have hsecond : add i.val 1 = .ok j.val := by
    rw [add_eq (by omega), hi, hj]
  unfold pair UtcTime.pair
  refine Agrees.check hfirst (Agrees.check (index_get raw i) ?_)
  refine Agrees.plain_bind fun tens htens => ?_
  refine Agrees.check hfirst (Agrees.check hsecond ?_)
  refine Agrees.check (index_get raw j) ?_
  refine Agrees.plain_bind fun ones hones => ?_
  have htens := digit_le htens
  have hones := digit_le hones
  have hmul : mul tens 10 = .ok (tens * 10) := mul_eq (by omega)
  have hadd : add (tens * 10) ones = .ok (tens * 10 + ones) :=
    add_eq (by omega)
  refine Agrees.check hmul ?_
  rw [hadd]
  exact .ok rfl

/-- Two demands for the same reason are one. -/
theorem require_and {ε : Type} {p q : Prop} [Decidable p] [Decidable q]
    (reason : ε) :
    require (p ∧ q) reason
      = require p reason >>= fun _ => require q reason := by
  unfold require
  by_cases hp : p
  · simp only [hp, true_and, if_true]
    rfl
  · simp only [hp, false_and, if_false]
    rfl

/-- The date is read alike, and is one that exists. -/
theorem dateTime_agrees (raw : UtcTime) :
    Agrees (fun t t' => t = t' ∧ Dated t) (dateTime raw) raw.dateTime := by
  unfold dateTime UtcTime.dateTime
  refine Agrees.check (index_get raw 12) ?_
  refine Agrees.plain_bind fun _ _ => ?_
  refine (pair_agrees raw rfl rfl).bind fun year _ hyear => ?_
  cases hyear
  refine (pair_agrees raw rfl rfl).bind fun month _ hmonth => ?_
  cases hmonth
  refine (pair_agrees raw rfl rfl).bind fun day _ hday => ?_
  cases hday
  refine (pair_agrees raw rfl rfl).bind fun hour _ hhour => ?_
  cases hhour
  refine (pair_agrees raw rfl rfl).bind fun minute _ hminute => ?_
  cases hminute
  refine (pair_agrees raw rfl rfl).bind fun second _ hsecond => ?_
  cases hsecond
  refine Agrees.plain_bind fun _ hyear => ?_
  have hyear := require_eq_ok_iff.1 hyear
  have hadd : add 2000 year = .ok (2000 + year) :=
    add_eq (by rw [wordSize]; omega)
  refine Agrees.check hadd ?_
  refine Agrees.plain_bind fun _ hmonth => ?_
  have hmonth := require_eq_ok_iff.1 hmonth
  dsimp only
  -- the machine looks the month up between the two checks of the day
  rw [require_and (p := 1 ≤ day), bind_assoc]
  refine Agrees.plain_bind fun _ hday => ?_
  refine Agrees.check (daysInMonth_eq hmonth) ?_
  refine Agrees.plain_bind fun _ hlength => ?_
  refine Agrees.plain_bind fun _ hclock => ?_
  have hvalid : DateTime.IsValid
      ⟨2000 + year, month, day, hour, minute, second⟩ :=
    ⟨hmonth,
      ⟨require_eq_ok_iff.1 hday, require_eq_ok_iff.1 hlength⟩,
      require_eq_ok_iff.1 hclock⟩
  exact .ok ⟨rfl, hvalid, Nat.le_add_right _ _,
    Nat.add_lt_add_left hyear 2000⟩

/-- Whatever the thirteen characters are, the time that they spell is
worked out without a fault. -/
theorem seconds_agrees (raw : UtcTime) :
    Agrees Eq (seconds raw) raw.seconds := by
  unfold seconds UtcTime.seconds
  refine (dateTime_agrees raw).bind fun t t' h => ?_
  obtain ⟨hsame, hdated⟩ := h
  cases hsame
  exact Agrees.check hdated.toEpoch_eq (.ok rfl)

end Machine

end Attestation
