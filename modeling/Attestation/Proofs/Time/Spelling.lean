/-
UTCTime exactly. `spell` writes a date and time in the thirteen
characters of a UTCTime, and reading is the inverse of it: what is read
is what `spell` writes of the dates from 2000 to 2049 that exist
(`dateTime_eq_ok_iff`), and nothing else.

Reading takes six pairs of digits and a letter. A pair is read as a
number below 100 exactly if it is what the number is written as
(`pair_eq_ok_iff`), and thirteen characters are a spelling exactly if
each of its pairs is (`eq_spell_iff`); the year is spelled without its
century, which comes back as the first two thousand. What a spelling has
to satisfy besides (`Spellable`) is what the checks of the reader say,
with the last day of a month taken from the calendar.

Two digits in front of two digits decide an order as the numbers do that
they spell (`flatMap_twoDigits_lt_iff`), and the largest unit stands
first. So UTCTimes sort as their characters do, which with the order of
the seconds is the main statement, `seconds_exact`. The range of the
seconds is read off from the order: the first spelling is that of the
first of January 2000, and the last one of the last second of 2049.
-/
import Attestation.Proofs.Time.DayCount

namespace Attestation

namespace UtcTime

open Calendar

-- ========================================================== spellings

/-- The ASCII digit for the ones of a number. -/
def ones (n : Nat) : UInt8 :=
  UInt8.ofNat (48 + n % 10)

/-- The last two digits of a number. -/
def twoDigits (n : Nat) : Bytes :=
  [ones (n / 10), ones n]

/-- The characters of a date and time: two digits for each unit, and a
Z. Of the year these are its last two digits. -/
def spell (t : DateTime) : UtcTime where
  toList := t.fields.flatMap twoDigits ++ [90]
  length_eq := rfl

/-- A date and time of the years that two digits tell apart: the
calendar has the day, and the day has the second. -/
structure Spellable (t : DateTime) : Prop where
  day : t.date.Exists
  before_2050 : t.year < 2050
  hour_lt : t.hour < 24
  minute_lt : t.minute < 60
  second_lt : t.second < 60

variable {s t : DateTime} {raw a b : UtcTime} {m n : Nat}

theorem Spellable.dated (h : Spellable t) : Machine.Dated t where
  valid := by
    have hmonth : 1 ≤ t.month ∧ t.month ≤ 12 :=
      ⟨h.day.month_pos, h.day.month_le⟩
    have hday : 1 ≤ t.day ∧ t.day ≤ lastDay t.year t.month :=
      ⟨h.day.day_pos, h.day.day_le⟩
    rw [← monthLength_eq_lastDay hmonth] at hday
    exact ⟨hmonth, hday, h.hour_lt, h.minute_lt, h.second_lt⟩
  from_2000 := h.day.from_2000
  before_2050 := h.before_2050

theorem Spellable.of_dated (h : Machine.Dated t) : Spellable t where
  day := DateTime.exists_date h.valid h.from_2000
  before_2050 := h.before_2050
  hour_lt := h.valid.2.2.1
  minute_lt := h.valid.2.2.2.1
  second_lt := h.valid.2.2.2.2

/-- The ranges of the units, apart from what the month has to do with
the day. -/
theorem Spellable.bounds (h : Spellable t) :
    2000 ≤ t.year ∧ t.year < 2050 ∧ t.month ≤ 12 ∧ t.day ≤ 31
      ∧ t.hour < 24 ∧ t.minute < 60 ∧ t.second < 60 :=
  ⟨h.day.from_2000, h.before_2050, h.day.month_le,
    h.dated.valid.2.1.2.trans (Machine.monthLength_le t.year t.month),
    h.hour_lt, h.minute_lt, h.second_lt⟩

-- ============================================================= digits

theorem toNat_ones (n : Nat) : (ones n).toNat = 48 + n % 10 := by
  rw [ones, UInt8.toNat_ofNat']
  omega

theorem ones_lt_iff : ones m < ones n ↔ m % 10 < n % 10 := by
  rw [UInt8.lt_iff_toNat_lt, toNat_ones, toNat_ones]
  omega

theorem ones_inj : ones m = ones n ↔ m % 10 = n % 10 := by
  rw [← UInt8.toNat_inj, toNat_ones, toNat_ones]
  omega

theorem twoDigits_congr (h : m % 100 = n % 100) :
    twoDigits m = twoDigits n := by
  have htens : ones (m / 10) = ones (n / 10) := ones_inj.2 (by omega)
  have hunits : ones m = ones n := ones_inj.2 (by omega)
  rw [twoDigits, twoDigits, htens, hunits]

/-- Digits are the ten bytes from 48 on. -/
theorem digit_eq_ok_iff {byte : UInt8} :
    digit byte = .ok n ↔ n < 10 ∧ byte = ones n := by
  unfold digit
  constructor
  · intro h
    split at h
    case isFalse => cases h
    case isTrue hrange =>
      have hlow : 48 ≤ byte.toNat := UInt8.le_iff_toNat_le.1 hrange.1
      have hhigh : byte.toNat ≤ 57 := UInt8.le_iff_toNat_le.1 hrange.2
      cases h
      refine ⟨by omega, ?_⟩
      rw [← UInt8.toNat_inj, toNat_ones]
      omega
  · intro h
    obtain ⟨hn, rfl⟩ := h
    have hrange : 48 ≤ ones n ∧ ones n ≤ 57 := by
      rw [UInt8.le_iff_toNat_le, UInt8.le_iff_toNat_le, toNat_ones]
      constructor
      · exact Nat.le_add_right 48 _
      · show 48 + n % 10 ≤ 57
        omega
    rw [if_pos hrange, toNat_ones, Nat.add_sub_cancel_left,
      Nat.mod_eq_of_lt hn]

/-- A pair of characters is read as the number that it is written for.
-/
theorem pair_eq_ok_iff {i j : Fin 13} :
    raw.pair i j = .ok n
      ↔ n < 100 ∧ [raw.get i, raw.get j] = twoDigits n := by
  unfold pair twoDigits
  constructor
  · intro h
    obtain ⟨tens, htens, h⟩ := bind_eq_ok_iff.1 h
    obtain ⟨units, hunits, h⟩ := bind_eq_ok_iff.1 h
    cases h
    obtain ⟨htens, hfirst⟩ := digit_eq_ok_iff.1 htens
    obtain ⟨hunits, hsecond⟩ := digit_eq_ok_iff.1 hunits
    refine ⟨by omega, ?_⟩
    have htens' : ones ((tens * 10 + units) / 10) = ones tens :=
      ones_inj.2 (by omega)
    have hunits' : ones (tens * 10 + units) = ones units :=
      ones_inj.2 (by omega)
    rw [hfirst, hsecond, htens', hunits']
  · intro h
    obtain ⟨hn, hbytes⟩ := h
    obtain ⟨hfirst, hsecond⟩ := List.cons.inj hbytes
    obtain ⟨hsecond, -⟩ := List.cons.inj hsecond
    have hunits : ones n = ones (n % 10) := ones_inj.2 (by omega)
    refine bind_eq_ok_iff.2
      ⟨n / 10, digit_eq_ok_iff.2 ⟨by omega, hfirst⟩, ?_⟩
    refine bind_eq_ok_iff.2
      ⟨n % 10, digit_eq_ok_iff.2 ⟨by omega, hsecond.trans hunits⟩, ?_⟩
    rw [Nat.div_add_mod']
    rfl

-- ============================================================ reading

/-- The characters one by one. -/
theorem toList_eq (raw : UtcTime) :
    raw.toList
      = [raw.get 0, raw.get 1] ++ [raw.get 2, raw.get 3]
        ++ [raw.get 4, raw.get 5] ++ [raw.get 6, raw.get 7]
        ++ [raw.get 8, raw.get 9] ++ [raw.get 10, raw.get 11]
        ++ [raw.get 12] := by
  obtain ⟨characters, hlength⟩ := raw
  match characters, hlength with
  | [_, _, _, _, _, _, _, _, _, _, _, _, _], _ => rfl

/-- A spelling, pair by pair. -/
theorem eq_spell_iff :
    raw = spell t
      ↔ [raw.get 0, raw.get 1] = twoDigits t.year
        ∧ [raw.get 2, raw.get 3] = twoDigits t.month
        ∧ [raw.get 4, raw.get 5] = twoDigits t.day
        ∧ [raw.get 6, raw.get 7] = twoDigits t.hour
        ∧ [raw.get 8, raw.get 9] = twoDigits t.minute
        ∧ [raw.get 10, raw.get 11] = twoDigits t.second
        ∧ raw.get 12 = 90 := by
  have hspell : (spell t).toList
      = twoDigits t.year ++ twoDigits t.month ++ twoDigits t.day
        ++ twoDigits t.hour ++ twoDigits t.minute ++ twoDigits t.second
        ++ [90] := rfl
  constructor
  · intro h
    have hbytes := congrArg FixedBytes.toList h
    rw [toList_eq raw, hspell] at hbytes
    simpa [twoDigits, and_assoc] using hbytes
  · rintro ⟨hyear, hmonth, hday, hhour, hminute, hsecond, hzone⟩
    apply FixedBytes.ext
    rw [toList_eq raw, hspell, hyear, hmonth, hday, hhour, hminute,
      hsecond, hzone]

/-- What is read is what is spelled, of the dates that exist. -/
theorem dateTime_eq_ok_iff :
    raw.dateTime = .ok t ↔ Spellable t ∧ raw = spell t := by
  unfold dateTime
  constructor
  · intro h
    obtain ⟨_, hzone, h⟩ := bind_eq_ok_iff.1 h
    obtain ⟨year, hyear, h⟩ := bind_eq_ok_iff.1 h
    obtain ⟨month, hmonth, h⟩ := bind_eq_ok_iff.1 h
    obtain ⟨day, hday, h⟩ := bind_eq_ok_iff.1 h
    obtain ⟨hour, hhour, h⟩ := bind_eq_ok_iff.1 h
    obtain ⟨minute, hminute, h⟩ := bind_eq_ok_iff.1 h
    obtain ⟨second, hsecond, h⟩ := bind_eq_ok_iff.1 h
    obtain ⟨_, hcentury, h⟩ := bind_eq_ok_iff.1 h
    obtain ⟨_, hmonths, h⟩ := bind_eq_ok_iff.1 h
    obtain ⟨_, hdays, h⟩ := bind_eq_ok_iff.1 h
    obtain ⟨_, hclock, h⟩ := bind_eq_ok_iff.1 h
    cases h
    have hcentury := require_eq_ok_iff.1 hcentury
    have hvalid : DateTime.IsValid
        ⟨2000 + year, month, day, hour, minute, second⟩ :=
      ⟨require_eq_ok_iff.1 hmonths, require_eq_ok_iff.1 hdays,
        require_eq_ok_iff.1 hclock⟩
    -- the century is not spelled
    have hshort : twoDigits (2000 + year) = twoDigits year :=
      twoDigits_congr (by omega)
    refine ⟨.of_dated ⟨hvalid, Nat.le_add_right _ _,
      Nat.add_lt_add_left hcentury 2000⟩, eq_spell_iff.2 ?_⟩
    exact ⟨(pair_eq_ok_iff.1 hyear).2.trans hshort.symm,
      (pair_eq_ok_iff.1 hmonth).2, (pair_eq_ok_iff.1 hday).2,
      (pair_eq_ok_iff.1 hhour).2, (pair_eq_ok_iff.1 hminute).2,
      (pair_eq_ok_iff.1 hsecond).2, require_eq_ok_iff.1 hzone⟩
  · rintro ⟨h, hraw⟩
    obtain ⟨year, month, day, hour, minute, second⟩ := t
    obtain ⟨hyear, hmonth, hday, hhour, hminute, hsecond, hzone⟩ :=
      eq_spell_iff.1 hraw
    have hbounds := h.bounds
    obtain ⟨hmonths, hdays, hclock⟩ := h.dated.valid
    -- from here on the year is counted within the century
    obtain ⟨year, rfl⟩ := Nat.exists_eq_add_of_le h.day.from_2000
    dsimp only at hyear hmonth hday hhour hminute hsecond hbounds
    have hshort : twoDigits (2000 + year) = twoDigits year :=
      twoDigits_congr (by omega)
    refine bind_eq_ok_iff.2 ⟨(), require_eq_ok_iff.2 hzone, ?_⟩
    refine bind_eq_ok_iff.2
      ⟨year, pair_eq_ok_iff.2 ⟨by omega, hyear.trans hshort⟩, ?_⟩
    refine bind_eq_ok_iff.2
      ⟨month, pair_eq_ok_iff.2 ⟨by omega, hmonth⟩, ?_⟩
    refine bind_eq_ok_iff.2
      ⟨day, pair_eq_ok_iff.2 ⟨by omega, hday⟩, ?_⟩
    refine bind_eq_ok_iff.2
      ⟨hour, pair_eq_ok_iff.2 ⟨by omega, hhour⟩, ?_⟩
    refine bind_eq_ok_iff.2
      ⟨minute, pair_eq_ok_iff.2 ⟨by omega, hminute⟩, ?_⟩
    refine bind_eq_ok_iff.2
      ⟨second, pair_eq_ok_iff.2 ⟨by omega, hsecond⟩, ?_⟩
    refine bind_eq_ok_iff.2 ⟨(), require_eq_ok_iff.2 (by omega), ?_⟩
    refine bind_eq_ok_iff.2 ⟨(), require_eq_ok_iff.2 hmonths, ?_⟩
    refine bind_eq_ok_iff.2 ⟨(), require_eq_ok_iff.2 hdays, ?_⟩
    exact bind_eq_ok_iff.2 ⟨(), require_eq_ok_iff.2 hclock, rfl⟩

-- ============================================================== order

/-- Two digits come before two others, or are the same and leave it to
what follows. -/
theorem twoDigits_append_lt_iff {x y : Bytes} :
    twoDigits m ++ x < twoDigits n ++ y
      ↔ m % 100 < n % 100 ∨ m % 100 = n % 100 ∧ x < y := by
  simp only [twoDigits, List.cons_append, List.nil_append,
    List.cons_lt_cons_iff, ones_lt_iff, ones_inj]
  by_cases hafter : x < y
  · simp only [hafter, and_true]
    omega
  · simp only [hafter, and_false, or_false]
    omega

/-- Rows of two digits sort as the numbers do that they spell. By
induction on the rows: the first unit that differs decides. -/
theorem flatMap_twoDigits_lt_iff {units others : List Nat} {x : Bytes}
    (hlength : units.length = others.length) :
    units.flatMap twoDigits ++ x < others.flatMap twoDigits ++ x
      ↔ units.map (· % 100) < others.map (· % 100) := by
  induction units generalizing others with
  | nil =>
    obtain rfl := List.eq_nil_of_length_eq_zero hlength.symm
    simp [List.lt_irrefl]
  | cons unit units ih =>
    obtain ⟨other, others, rfl⟩ :=
      List.exists_cons_of_length_eq_add_one hlength.symm
    have ih := ih (Nat.succ.inj hlength)
    rw [List.flatMap_cons, List.flatMap_cons, List.append_assoc,
      List.append_assoc, twoDigits_append_lt_iff, ih, List.map_cons,
      List.map_cons, List.cons_lt_cons_iff]

/-- Units are below a hundred, and years are told apart by their last
two digits. -/
theorem Spellable.spell_lt_iff (hs : Spellable s) (ht : Spellable t) :
    (spell s).toList < (spell t).toList ↔ s.fields < t.fields := by
  have hbounds := hs.bounds
  have hbounds' := ht.bounds
  have hlength : s.fields.length = t.fields.length := rfl
  rw [spell, spell, flatMap_twoDigits_lt_iff hlength]
  simp only [DateTime.fields, List.map_cons, List.map_nil,
    List.cons_lt_cons_iff, List.not_lt_nil, and_false, or_false]
  omega

-- ============================================================ seconds

theorem Spellable.toSeconds_lt_iff (hs : Spellable s)
    (ht : Spellable t) :
    s.fields < t.fields ↔ s.toSeconds < t.toSeconds :=
  DateTime.toSeconds_lt_iff hs.dated.valid hs.dated.from_2000
    ht.dated.valid ht.dated.from_2000

/-- The last second that can be spelled. -/
def lastSecond : DateTime :=
  ⟨2049, 12, 31, 23, 59, 59⟩

theorem spellable_lastSecond : Spellable lastSecond where
  day := ⟨by decide, by decide, by decide, by decide, by decide⟩
  before_2050 := by decide
  hour_lt := by decide
  minute_lt := by decide
  second_lt := by decide

/-- All that can be spelled lies in the first half of the century. -/
theorem Spellable.toSeconds_bounds (h : Spellable t) :
    946684800 ≤ t.toSeconds ∧ t.toSeconds ≤ 2524607999 := by
  constructor
  · rw [DateTime.toSeconds_eq, Nat.add_assoc]
    exact Nat.le_add_right startOf2000 _
  · have hend : lastSecond.toSeconds = 2524607999 := rfl
    rw [← hend, ← Nat.not_lt, ← spellable_lastSecond.toSeconds_lt_iff h]
    -- no unit of it could be larger
    have hbounds := h.bounds
    simp only [DateTime.fields, lastSecond, List.cons_lt_cons_iff,
      List.not_lt_nil, and_false, or_false]
    omega

/-- The seconds that are read are those of the date and time that is
spelled. -/
theorem seconds_eq_ok_iff {moment : UInt64} :
    raw.seconds = .ok moment
      ↔ ∃ t, Spellable t ∧ raw = spell t
        ∧ moment.toNat = t.toSeconds := by
  have hword {t : DateTime} (h : Spellable t) :
      (UInt64.ofNat t.toSeconds).toNat = t.toSeconds := by
    have hle := h.toSeconds_bounds.2
    rw [UInt64.toNat_ofNat']
    exact Nat.mod_eq_of_lt (by omega)
  unfold seconds
  rw [bind_eq_ok_iff]
  constructor
  · rintro ⟨t, ht, hmoment⟩
    cases hmoment
    obtain ⟨hspellable, hraw⟩ := dateTime_eq_ok_iff.1 ht
    exact ⟨t, hspellable, hraw, hword hspellable⟩
  · rintro ⟨t, hspellable, hraw, hmoment⟩
    refine ⟨t, dateTime_eq_ok_iff.2 ⟨hspellable, hraw⟩, ?_⟩
    rw [← hmoment, UInt64.ofNat_toNat]
    rfl

/-- The moments that UTCTimes name are the seconds of 2000 to 2049. -/
theorem seconds_bounds {moment : UInt64} (h : raw.seconds = .ok moment) :
    946684800 ≤ moment.toNat ∧ moment.toNat ≤ 2524607999 := by
  obtain ⟨t, hspellable, -, hmoment⟩ := seconds_eq_ok_iff.1 h
  rw [hmoment]
  exact hspellable.toSeconds_bounds

/-- UTCTimes sort as the moments do that they name. -/
theorem lt_iff_seconds_lt {moment later : UInt64}
    (h : a.seconds = .ok moment) (h' : b.seconds = .ok later) :
    a.toList < b.toList ↔ moment < later := by
  obtain ⟨s, hs, rfl, hmoment⟩ := seconds_eq_ok_iff.1 h
  obtain ⟨t, ht, rfl, hlater⟩ := seconds_eq_ok_iff.1 h'
  calc (spell s).toList < (spell t).toList
      ↔ s.fields < t.fields := hs.spell_lt_iff ht
    _ ↔ s.toSeconds < t.toSeconds := hs.toSeconds_lt_iff ht
    _ ↔ moment < later := by
      rw [UInt64.lt_iff_toNat_lt, hmoment, hlater]

/-- Thirteen characters are read as a moment exactly if they are two
digits each for the last digits of a year from 2000 to 2049, for the
month and the day of a day that the calendar has in that year, and for
an hour, a minute and a second of it, and then a Z; and the moment is
the one that the closed form gives, a second of those years. Two such
texts sort by their characters as their moments do, and so no two of
them name one moment. -/
theorem seconds_exact :
    (∀ (raw : UtcTime) (moment : UInt64),
      raw.seconds = .ok moment
        ↔ ∃ t, Spellable t ∧ raw = spell t
          ∧ moment.toNat = t.toSeconds)
      ∧ (∀ (raw : UtcTime) (moment : UInt64),
        raw.seconds = .ok moment →
          946684800 ≤ moment.toNat ∧ moment.toNat ≤ 2524607999)
      ∧ ∀ (a b : UtcTime) (moment other : UInt64),
        a.seconds = .ok moment → b.seconds = .ok other →
          (a.toList < b.toList ↔ moment < other)
          ∧ (moment = other → a = b) := by
  refine ⟨fun raw moment => seconds_eq_ok_iff,
    fun raw moment => seconds_bounds, fun a b moment other ha hb => ?_⟩
  refine ⟨lt_iff_seconds_lt ha hb, fun hsame => ?_⟩
  -- neither text comes before the other
  have hab : ¬a.toList < b.toList := by
    rw [lt_iff_seconds_lt ha hb, hsame]
    exact UInt64.lt_irrefl other
  have hba : ¬b.toList < a.toList := by
    rw [lt_iff_seconds_lt hb ha, hsame]
    exact UInt64.lt_irrefl other
  exact FixedBytes.ext (List.le_antisymm hba hab)

/-- The leap day of 2024, and the last second of all. -/
theorem seconds_exact_leapDay :
    (spell ⟨2024, 2, 29, 12, 0, 0⟩).toList = Bytes.ascii "240229120000Z"
      ∧ (spell ⟨2024, 2, 29, 12, 0, 0⟩).seconds = .ok 1709208000
      ∧ (spell lastSecond).seconds = .ok 2524607999
      ∧ (spell ⟨2024, 2, 29, 12, 0, 0⟩).toList
        < (spell lastSecond).toList := by
  have hday : Spellable ⟨2024, 2, 29, 12, 0, 0⟩ :=
    ⟨⟨by decide, by decide, by decide, by decide, by decide⟩,
      by decide, by decide, by decide, by decide⟩
  have hleap := (seconds_exact.1 _ 1709208000).2 ⟨_, hday, rfl, rfl⟩
  have hlast := (seconds_exact.1 _ 2524607999).2
    ⟨_, spellable_lastSecond, rfl, rfl⟩
  exact ⟨rfl, hleap, hlast,
    (seconds_exact.2.2 _ _ _ _ hleap hlast).1.2 (by decide)⟩

end UtcTime

end Attestation
