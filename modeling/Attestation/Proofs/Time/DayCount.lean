/-
The calendar counted off day by day. From the first of January 2000 on
every day leads to the next one, by nothing but the rules for the
lengths of months (`Day.next`), and so each day is the so-many-th of a
count (`nth`). The closed form knows the number of a day without
counting: the next day has the next number (`Day.number_next`), so the
day that is counted at `n` has the number `n` (`number_nth`), and a
later day has a larger number (`Day.number_lt`), so that no two days
share one.

The rules of the count are written down here, apart from the tables and
quotients of the closed form, so that agreement of the two says
something. Going to the next day either stays in the month, or goes to
the next month, where the months before it have to add up
(`monthStart_succ`), or goes to the next year, where the years before it
have to (`yearStart_succ`). In the last case each of the quotients by 4,
100 and 400 grows by one exactly in the years that it divides, which is
how the leap years come in.

For the order a year and a month are blocks: a day does not get out of
its month, and a month not out of its year, so what decides is the first
of year, month and day that differs.

A date and time is a day and a second of that day. What holds of days
therefore holds of seconds, which is the main statement,
`toSeconds_counts_days`; that every second of the count is one of a date
and time is shown by writing the date down (`ofCount`).
-/
import Attestation.Proofs.Machine.Calendar
import Mathlib.Tactic.IntervalCases

namespace Attestation

namespace Calendar

-- ======================================================== the rules

/-- The last day of a month: the thirtieth of April, June, September
and November, the twenty-eighth of February or, in a leap year, the
twenty-ninth, and the thirty-first of all others. -/
def lastDay (year month : Nat) : Nat :=
  if month = 2 then if isLeap year then 29 else 28
  else if month = 4 ∨ month = 6 ∨ month = 9 ∨ month = 11 then 30
  else 31

/-- A day of the calendar. -/
structure Day where
  year : Nat
  month : Nat
  day : Nat
deriving DecidableEq

namespace Day

/-- The day exists, and the count has come to it. -/
structure Exists (d : Day) : Prop where
  from_2000 : 2000 ≤ d.year
  month_pos : 1 ≤ d.month
  month_le : d.month ≤ 12
  day_pos : 1 ≤ d.day
  day_le : d.day ≤ lastDay d.year d.month

def first : Day :=
  ⟨2000, 1, 1⟩

/-- The day after a day. -/
def next (d : Day) : Day :=
  if d.day < lastDay d.year d.month then ⟨d.year, d.month, d.day + 1⟩
  else if d.month < 12 then ⟨d.year, d.month + 1, 1⟩
  else ⟨d.year + 1, 1, 1⟩

/-- The day that is reached when `n` days are counted off after the
first. -/
def nth : Nat → Day
  | 0 => first
  | n + 1 => (nth n).next

/-- The number that the closed form gives a day. -/
def number (d : Day) : Nat :=
  yearStart d.year + monthStart d.year d.month + (d.day - 1)

end Day

-- ================================================== the closed form

variable {year later month other : Nat} {d e : Day}

theorem one_le_lastDay (year month : Nat) : 1 ≤ lastDay year month := by
  unfold lastDay
  split_ifs <;> omega

/-- The table of the lengths of months follows the rules. -/
theorem monthLength_eq_lastDay (h : 1 ≤ month ∧ month ≤ 12) :
    monthLength year month = lastDay year month := by
  obtain ⟨hpos, hle⟩ := h
  unfold monthLength lastDay
  cases isLeap year <;> interval_cases month <;> rfl

/-- The days of a year. -/
def yearLength (year : Nat) : Nat :=
  if isLeap year then 366 else 365

/-- Rounded up, a quotient steps behind each multiple of its divisor. -/
theorem roundedUp_succ (y : Nat) {k : Nat} (hk : 0 < k) :
    (y + 1 + (k - 1)) / k
      = (y + (k - 1)) / k + if y % k = 0 then 1 else 0 := by
  have hsum : y + 1 + (k - 1) = y + k := by omega
  rw [hsum, Nat.add_div_right _ hk]
  have hy := Nat.div_add_mod y k
  have hlt := Nat.mod_lt y hk
  split_ifs with h
  · have hround : (y + (k - 1)) / k = y / k :=
      Nat.div_eq_of_lt_le (by rw [Nat.mul_comm]; omega)
        (by rw [Nat.add_mul, Nat.mul_comm]; omega)
    rw [hround]
  · have hround : (y + (k - 1)) / k = y / k + 1 :=
      Nat.div_eq_of_lt_le (by rw [Nat.add_mul, Nat.mul_comm]; omega)
        (by rw [Nat.add_mul, Nat.add_mul, Nat.mul_comm]; omega)
    rw [hround]

/-- Leap years from 2000 on, in numbers from zero. -/
theorem isLeap_iff (y : Nat) :
    isLeap (2000 + y) = true
      ↔ y % 4 = 0 ∧ (y % 100 ≠ 0 ∨ y % 400 = 0) := by
  have hfour : (2000 + y) % 4 = y % 4 := by omega
  have hhundred : (2000 + y) % 100 = y % 100 := by omega
  have hfourHundred : (2000 + y) % 400 = y % 400 := by omega
  simp [isLeap, hfour, hhundred, hfourHundred]

/-- The days before a year, in numbers from zero. -/
theorem yearStart_add (y : Nat) :
    yearStart (2000 + y)
      = y * 365 + (y + 3) / 4 - (y + 99) / 100 + (y + 399) / 400 := by
  unfold yearStart
  rw [Nat.add_sub_cancel_left]

/-- A year ends after as many days as it has: of the three quotients in
the closed form, each steps in the years that its part of the leap rule
is about. -/
theorem yearStart_succ (h : 2000 ≤ year) :
    yearStart (year + 1) = yearStart year + yearLength year := by
  obtain ⟨y, rfl⟩ := Nat.exists_eq_add_of_le h
  have hfour := roundedUp_succ y (k := 4) (by decide)
  have hhundred := roundedUp_succ y (k := 100) (by decide)
  have hfourHundred := roundedUp_succ y (k := 400) (by decide)
  have hless : (y + 99) / 100 ≤ y := by omega
  have hhundredths : y % 100 = 0 → y % 4 = 0 := by omega
  have hfourHundredths : y % 400 = 0 → y % 100 = 0 := by omega
  have hleap := isLeap_iff y
  unfold yearLength
  rw [Nat.add_assoc, yearStart_add, yearStart_add, hfour, hhundred,
    hfourHundred]
  -- the remainders alone decide, whatever the quotients are
  generalize (y + 3) / 4 = fours at *
  generalize (y + 99) / 100 = hundreds at *
  generalize (y + 399) / 400 = fourHundreds at *
  generalize y % 4 = q, y % 100 = c, y % 400 = f at *
  split_ifs <;> grind

theorem yearStart_mono (h : 2000 ≤ year) (hle : year ≤ later) :
    yearStart year ≤ yearStart later := by
  induction later, hle using Nat.le_induction with
  | base => exact Nat.le_refl _
  | succ later hle ih =>
    rw [yearStart_succ (Nat.le_trans h hle)]
    omega

/-- The next month begins where the one before has ended. -/
theorem monthStart_succ (hpos : 1 ≤ month) (hlt : month < 12) :
    monthStart year (month + 1)
      = monthStart year month + lastDay year month := by
  unfold monthStart lastDay
  cases isLeap year <;> interval_cases month <;> rfl

theorem monthStart_mono (hpos : 1 ≤ month) (hle : month ≤ other)
    (hother : other ≤ 12) :
    monthStart year month ≤ monthStart year other := by
  induction other, hle using Nat.le_induction with
  | base => exact Nat.le_refl _
  | succ other hle ih =>
    rw [monthStart_succ (Nat.le_trans hpos hle) hother]
    have := ih (Nat.le_of_lt hother)
    omega

/-- December ends the year. -/
theorem monthStart_december (year : Nat) :
    monthStart year 12 + lastDay year 12 = yearLength year := by
  unfold monthStart lastDay yearLength
  cases isLeap year <;> rfl

/-- No month goes on past the end of its year. -/
theorem month_end_le (hpos : 1 ≤ month) (hle : month ≤ 12) :
    monthStart year month + lastDay year month ≤ yearLength year := by
  rcases Nat.lt_or_eq_of_le hle with hlt | rfl
  · rw [← monthStart_succ hpos hlt, ← monthStart_december year]
    exact Nat.le_trans (monthStart_mono (by omega) hlt (Nat.le_refl 12))
      (Nat.le_add_right _ _)
  · exact Nat.le_of_eq (monthStart_december year)

-- ======================================================== the count

/-- The day after a day of the calendar is one. -/
theorem Day.exists_next (h : d.Exists) : d.next.Exists := by
  obtain ⟨hyear, hmonth, hmonth', hday, -⟩ := h
  unfold next
  split_ifs with hlast hdecember
  · exact ⟨hyear, hmonth, hmonth', by simp, hlast⟩
  · exact ⟨hyear, by simp, hdecember, by simp, one_le_lastDay _ _⟩
  · exact ⟨Nat.le_succ_of_le hyear, by simp, by simp, by simp,
      one_le_lastDay _ _⟩

/-- One step of the count is one step of the numbers. -/
theorem Day.number_next (h : d.Exists) : d.next.number = d.number + 1 := by
  obtain ⟨hyear, hmonth, hmonth', hday, hday'⟩ := h
  unfold next
  split_ifs with hlast hdecember
  case pos =>
    unfold number
    dsimp only
    omega
  case pos =>
    -- the last of a month before December
    unfold number
    dsimp only
    rw [monthStart_succ hmonth hdecember]
    omega
  case neg =>
    -- the last of December
    have hmonth : d.month = 12 := by omega
    have hdays := monthStart_december d.year
    have hjanuary : monthStart (d.year + 1) 1 = 0 := rfl
    rw [hmonth] at hlast hday'
    unfold number
    dsimp only
    rw [yearStart_succ hyear, hjanuary, hmonth]
    omega

theorem exists_nth (n : Nat) : (Day.nth n).Exists := by
  induction n with
  | zero => exact ⟨by decide, by decide, by decide, by decide, by decide⟩
  | succ n ih => exact Day.exists_next ih

/-- The day that is counted at `n` has the number `n`. -/
theorem number_nth (n : Nat) : (Day.nth n).number = n := by
  induction n with
  | zero => rfl
  | succ n ih =>
    show (Day.nth n).next.number = n + 1
    rw [Day.number_next (exists_nth n), ih]

-- ======================================================== the order

/-- A day comes before another one. -/
def Day.Before (d e : Day) : Prop :=
  d.year < e.year
    ∨ d.year = e.year
      ∧ (d.month < e.month ∨ d.month = e.month ∧ d.day < e.day)

/-- Days are in a row. -/
theorem Day.before_or_eq_or_after (d e : Day) :
    d.Before e ∨ d = e ∨ e.Before d := by
  obtain ⟨year, month, day⟩ := d
  obtain ⟨year', month', day'⟩ := e
  simp only [Before, Day.mk.injEq]
  omega

/-- A day is numbered below the days of the next year. -/
theorem Day.number_lt_of_year (hd : d.Exists) :
    d.number < yearStart d.year + yearLength d.year := by
  have hpos := hd.day_pos
  have hday := hd.day_le
  have hend : monthStart d.year d.month + lastDay d.year d.month
      ≤ yearLength d.year := month_end_le hd.month_pos hd.month_le
  unfold number
  omega

/-- A later day has a larger number. -/
theorem Day.number_lt (hd : d.Exists) (he : e.Exists)
    (h : d.Before e) : d.number < e.number := by
  rcases h with hyear | ⟨hyear, hmonth | ⟨hmonth, hday⟩⟩
  · have hend := number_lt_of_year hd
    have hstart : yearStart (d.year + 1) ≤ yearStart e.year :=
      yearStart_mono (Nat.le_succ_of_le hd.from_2000) hyear
    rw [yearStart_succ hd.from_2000] at hstart
    unfold number at hend ⊢
    omega
  · have hlt : d.month < 12 := Nat.lt_of_lt_of_le hmonth he.month_le
    have hpos := hd.day_pos
    have hday := hd.day_le
    have hstart : monthStart d.year (d.month + 1)
        ≤ monthStart d.year e.month :=
      monthStart_mono (by omega) hmonth he.month_le
    rw [monthStart_succ hd.month_pos hlt] at hstart
    unfold number
    rw [← hyear]
    omega
  · have hpos := hd.day_pos
    unfold number
    rw [← hyear, ← hmonth]
    omega

/-- No two days have one number. -/
theorem Day.number_inj (hd : d.Exists) (he : e.Exists)
    (h : d.number = e.number) : d = e := by
  rcases before_or_eq_or_after d e with hbefore | hsame | hafter
  · exact absurd h (Nat.ne_of_lt (number_lt hd he hbefore))
  · exact hsame
  · exact absurd h.symm (Nat.ne_of_lt (number_lt he hd hafter))

/-- A day is counted at its number, and nowhere else. -/
theorem nth_eq_iff (hd : d.Exists) {n : Nat} :
    Day.nth n = d ↔ n = d.number := by
  refine ⟨fun h => ?_, fun h => ?_⟩
  · rw [← h, number_nth]
  · refine Day.number_inj (exists_nth n) hd ?_
    rw [number_nth, h]

/-- The leap day of 2000, and the day after it. -/
example : Day.nth 59 = ⟨2000, 2, 29⟩ ∧ Day.nth 60 = ⟨2000, 3, 1⟩ := by
  decide +kernel

end Calendar

-- ========================================================== seconds

namespace DateTime

open Calendar

variable {s t : DateTime}

/-- The day of a date and time. -/
def date (t : DateTime) : Day :=
  ⟨t.year, t.month, t.day⟩

/-- The seconds of the day that have passed. -/
def secondOfDay (t : DateTime) : Nat :=
  t.hour * 3600 + t.minute * 60 + t.second

/-- The numbers that make up a date and time, the largest unit first. -/
def fields (t : DateTime) : List Nat :=
  [t.year, t.month, t.day, t.hour, t.minute, t.second]

theorem exists_date (hvalid : t.IsValid) (hyear : 2000 ≤ t.year) :
    t.date.Exists := by
  obtain ⟨hmonth, hday, -⟩ := hvalid
  rw [monthLength_eq_lastDay hmonth] at hday
  exact ⟨hyear, hmonth.1, hmonth.2, hday.1, hday.2⟩

theorem secondOfDay_lt (hvalid : t.IsValid) : t.secondOfDay < 86400 := by
  obtain ⟨-, -, hhour, hminute, hsecond⟩ := hvalid
  unfold secondOfDay
  omega

/-- Seconds are those of the days before and those of the day itself. -/
theorem toSeconds_eq (t : DateTime) :
    t.toSeconds = startOf2000 + t.date.number * 86400 + t.secondOfDay := by
  unfold toSeconds secondOfDay
  simp only [date, Day.number, Nat.add_assoc]

/-- From the largest unit to the smallest, dates and times have the
order of their days, and on one day of the time of day. -/
theorem fields_lt_iff :
    s.fields < t.fields
      ↔ s.date.Before t.date
        ∨ s.date = t.date
          ∧ (s.hour < t.hour ∨ s.hour = t.hour
            ∧ (s.minute < t.minute
              ∨ s.minute = t.minute ∧ s.second < t.second)) := by
  simp only [fields, date, Day.Before, Day.mk.injEq,
    List.cons_lt_cons_iff, List.not_lt_nil, and_false, or_false]
  omega

/-- A later date and time is more seconds after 1970. -/
theorem toSeconds_lt (hs : s.IsValid) (hsyear : 2000 ≤ s.year)
    (ht : t.IsValid) (htyear : 2000 ≤ t.year) (h : s.fields < t.fields) :
    s.toSeconds < t.toSeconds := by
  have hfull := secondOfDay_lt hs
  rw [toSeconds_eq, toSeconds_eq]
  rcases fields_lt_iff.1 h with hday | ⟨hday, hclock⟩
  · have hnumber := Day.number_lt (exists_date hs hsyear)
      (exists_date ht htyear) hday
    omega
  · obtain ⟨-, -, hhour, hminute, hsecond⟩ := hs
    obtain ⟨-, -, hhour', hminute', hsecond'⟩ := ht
    rw [hday]
    unfold secondOfDay
    omega

theorem lt_or_eq_or_lt (s t : DateTime) :
    s.fields < t.fields ∨ s = t ∨ t.fields < s.fields := by
  obtain ⟨year, month, day, hour, minute, second⟩ := s
  obtain ⟨year', month', day', hour', minute', second'⟩ := t
  simp only [fields, DateTime.mk.injEq, List.cons_lt_cons_iff,
    List.not_lt_nil, and_false, or_false]
  omega

/-- Later dates and times have more seconds, and only they do. -/
theorem toSeconds_lt_iff (hs : s.IsValid) (hsyear : 2000 ≤ s.year)
    (ht : t.IsValid) (htyear : 2000 ≤ t.year) :
    s.fields < t.fields ↔ s.toSeconds < t.toSeconds := by
  refine ⟨toSeconds_lt hs hsyear ht htyear, fun h => ?_⟩
  rcases lt_or_eq_or_lt s t with hlt | rfl | hgt
  · exact hlt
  · exact absurd h (Nat.lt_irrefl _)
  · exact absurd h (Nat.lt_asymm (toSeconds_lt ht htyear hs hsyear hgt))

/-- The date and time at a second after 2000 began, by counting days and
cutting up what is left. -/
def ofCount (n : Nat) : DateTime :=
  let d := Day.nth (n / 86400)
  let left := n % 86400
  ⟨d.year, d.month, d.day, left / 3600, left % 3600 / 60, left % 60⟩

theorem isValid_ofCount (n : Nat) :
    (ofCount n).IsValid ∧ 2000 ≤ (ofCount n).year := by
  obtain ⟨hyear, hpos, hle, hday, hday'⟩ := exists_nth (n / 86400)
  rw [← monthLength_eq_lastDay ⟨hpos, hle⟩] at hday'
  refine ⟨⟨⟨hpos, hle⟩, ⟨hday, hday'⟩, ?_, ?_, ?_⟩, hyear⟩
  all_goals
    simp only [ofCount]
    omega

/-- The date and time that is written down for a second has that second.
-/
theorem toSeconds_ofCount (n : Nat) :
    (ofCount n).toSeconds = startOf2000 + n := by
  have hnumber : (ofCount n).date.number = n / 86400 := number_nth _
  have hleft : (ofCount n).secondOfDay = n % 86400 := by
    simp only [secondOfDay, ofCount]
    omega
  rw [toSeconds_eq, hnumber, hleft]
  omega

/-- The closed form counts days. The seconds of a date and time that
exists, from 2000 on, are those of the days that are counted off one by
one before its day is reached, and of the time of day; and a machine
works them out without a fault if they fit in a word. So they grow with
the date and time, and from the beginning of 2000 on every number of
seconds is that of exactly one. -/
theorem toSeconds_counts_days :
    (∀ t : DateTime, t.IsValid → 2000 ≤ t.year →
      (∃ days, Day.nth days = t.date
        ∧ (∀ n, Day.nth n = t.date → n = days)
        ∧ t.toSeconds = startOf2000 + days * 86400 + t.secondOfDay)
      ∧ (t.toSeconds < Machine.wordSize →
        Machine.toEpoch t = .ok t.toSeconds))
      ∧ (∀ s t : DateTime, s.IsValid → 2000 ≤ s.year →
        t.IsValid → 2000 ≤ t.year →
        (s.fields < t.fields ↔ s.toSeconds < t.toSeconds))
      ∧ ∀ n, startOf2000 ≤ n →
        ∃! t : DateTime, (t.IsValid ∧ 2000 ≤ t.year) ∧ t.toSeconds = n := by
  refine ⟨fun t hvalid hyear => ⟨?_, ?_⟩, ?_, fun n hn => ?_⟩
  · have hday := exists_date hvalid hyear
    exact ⟨t.date.number, (nth_eq_iff hday).2 rfl,
      fun n => (nth_eq_iff hday).1, toSeconds_eq t⟩
  · exact Machine.toEpoch_eq hvalid hyear
  · exact fun s t hs hsyear ht htyear =>
      toSeconds_lt_iff hs hsyear ht htyear
  · obtain ⟨m, rfl⟩ := Nat.exists_eq_add_of_le hn
    refine ⟨ofCount m, ⟨isValid_ofCount m, toSeconds_ofCount m⟩, ?_⟩
    rintro t ⟨⟨hvalid, hyear⟩, ht⟩
    have hsame : t.toSeconds = (ofCount m).toSeconds :=
      ht.trans (toSeconds_ofCount m).symm
    obtain ⟨hvalid', hyear'⟩ := isValid_ofCount m
    -- neither comes before the other
    rcases lt_or_eq_or_lt t (ofCount m) with hlt | heq | hgt
    · exact absurd hsame
        (Nat.ne_of_lt (toSeconds_lt hvalid hyear hvalid' hyear' hlt))
    · exact heq
    · exact absurd hsame.symm
        (Nat.ne_of_lt (toSeconds_lt hvalid' hyear' hvalid hyear hgt))

end DateTime

end Attestation
