/-
The texts that state an expectation: an index in decimal and 48 bytes in
hexadecimal, on the two sides of the first equals sign, each between
blanks (`States`). A text is read as an index and a value exactly if it
states them.

A text that states nothing fails at one of four stages, and they are
taken in order: there is an equals sign, there is an index before it,
there are digits after it, and they are those of 48 bytes. What stands
after a stage that fails makes no difference (`parse_by_stages`).

What a stage asks for is said of the text (`Stage.Passed`), not of the
step that checks it. Three of the stages speak of the sides of the first
equals sign, and without that sign there are no sides; so a text without
it fails at the later stages as well, and it is the order of the stages
that makes the fault the right one. The order is that of `FirstFailing`,
and the proof goes line by line through the rule (`parse_namesFirst`):
each line is one stage, and its success is what the equivalences
`passed_separator_iff` to `passed_length_iff` say of the text.

The equals sign may occur in what follows the first one, and then it is
no hex digit and the third stage fails; it cannot occur on the left.
That the sides are unique (`Sides.unique`) is what lets the stages be
stated with any two sides of the text.
-/
import Attestation.CommandLine.Expectation
import Attestation.Proofs.Refusal.FirstFailure
import Attestation.Proofs.Text.Decimal
import Attestation.Proofs.Text.Hex

namespace Attestation

namespace Expectation

variable {left right text : List Char} {index : UInt8} {value : Pcr}
  {data : Bytes}

-- ========================================================== the two sides

/-- The two sides of the first equals sign of a text. -/
structure Sides (text left right : List Char) : Prop where
  text_eq : text = left ++ '=' :: right
  not_mem : '=' ∉ left

/-- A text with two sides has an equals sign between them. -/
theorem Sides.mem (h : Sides text left right) : '=' ∈ text := by
  rw [h.text_eq]
  exact List.mem_append_right left List.mem_cons_self

/-- In front of the first equals sign no character is one. -/
theorem ne_of_not_mem (h : '=' ∉ text) :
    ∀ c ∈ text, (c != '=') = true := by
  intro c hc
  rw [bne_iff_ne]
  rintro rfl
  exact h hc

/-- The text is separated at its first equals sign. -/
theorem separate?_of_sides (h : Sides text left right) :
    separate? text = some (left, right) := by
  have hleft := ne_of_not_mem h.not_mem
  rw [separate?, h.text_eq, List.dropWhile_append_of_pos hleft,
    List.takeWhile_append_of_pos hleft]
  simp

/-- A text with an equals sign has a first one. -/
theorem exists_sides (h : '=' ∈ text) :
    ∃ left right, Sides text left right := by
  obtain ⟨left, right, htext, hleft⟩ := List.eq_append_cons_of_mem h
  exact ⟨left, right, htext, hleft⟩

/-- There is nothing to separate exactly in a text without one. -/
theorem separate?_eq_none_iff : separate? text = none ↔ '=' ∉ text := by
  constructor
  · intro h hmem
    obtain ⟨left, right, hsides⟩ := exists_sides hmem
    rw [separate?_of_sides hsides] at h
    cases h
  · intro h
    have hnone : (text ++ []).dropWhile (· != '=')
        = [].dropWhile (· != '=') :=
      List.dropWhile_append_of_pos (ne_of_not_mem h)
    rw [List.append_nil] at hnone
    rw [separate?, hnone]
    rfl

/-- What a text is separated into are the sides of its first equals
sign. -/
theorem separate?_eq_some_iff :
    separate? text = some (left, right) ↔ Sides text left right := by
  refine ⟨fun h => ?_, separate?_of_sides⟩
  by_cases hmem : '=' ∈ text
  · obtain ⟨_, _, hsides⟩ := exists_sides hmem
    rw [separate?_of_sides hsides] at h
    cases h
    exact hsides
  · rw [separate?_eq_none_iff.2 hmem] at h
    cases h

/-- A text has one first equals sign. -/
theorem Sides.unique {left' right' : List Char} (h : Sides text left right)
    (h' : Sides text left' right') : left = left' ∧ right = right' := by
  have hsame := (separate?_of_sides h).symm.trans (separate?_of_sides h')
  cases hsame
  exact ⟨rfl, rfl⟩

-- ================================================= what they may spell

/-- Between blanks stand the digits of an index, of which eight bits are
enough. -/
def IndexText (text : List Char) (index : UInt8) : Prop :=
  ∃ word, Text.Frames word text ∧ Decimal.Spells word index.toNat

/-- Between blanks, in letters of either case, stand the hex digits of a
byte string. -/
def HexText (text : List Char) (data : Bytes) : Prop :=
  ∃ digits, Text.Frames digits text
    ∧ digits.map Char.toLower = Hex.encode data

/-- A text states the value that the register with an index has to
have. -/
def States (text : String) (index : UInt8) (value : Pcr) : Prop :=
  ∃ left right, Sides text.toList left right
    ∧ IndexText left index ∧ HexText right value.toList

/-- The numbers up to 255 are the indices, and they are spelled alike.
-/
theorem parse_limited_eq_ok_iff {n : Nat} :
    Decimal.parse 255 (Text.trim text) = .ok n
      ↔ ∃ index : UInt8, index.toNat = n ∧ IndexText text index := by
  rw [Decimal.parse_eq_ok_iff, Decimal.spells_trim_iff]
  constructor
  · rintro ⟨hword, hlimit⟩
    have hn : (UInt8.ofNat n).toNat = n :=
      UInt8.toNat_ofNat_of_lt' (Nat.lt_succ_of_le hlimit)
    refine ⟨UInt8.ofNat n, hn, ?_⟩
    rw [IndexText, hn]
    exact hword
  · rintro ⟨index, rfl, hword⟩
    exact ⟨hword, Nat.le_of_lt_succ index.toNat_lt⟩

-- ========================================================== the stages

/-- The stages of reading an expectation. -/
inductive Stage where
  | separator
  | index
  | digits
  | length
deriving DecidableEq

namespace Stage

/-- The stages in their order. -/
def all : List Stage :=
  [.separator, .index, .digits, .length]

/-- What a stage asks of a text. -/
def Passed (text : List Char) : Stage → Prop
  | .separator => '=' ∈ text
  | .index =>
    ∃ left right index, Sides text left right ∧ IndexText left index
  | .digits =>
    ∃ left right data, Sides text left right ∧ HexText right data
  | .length =>
    ∃ left right data, Sides text left right ∧ HexText right data
      ∧ data.length = 48

end Stage

/-- The stage that a fault is one of. -/
def Fault.stage : Fault → Stage
  | .noSeparator => .separator
  | .badIndex _ => .index
  | .badHex _ => .digits
  | .badLength _ => .length

/-- Behind the first equals sign the reading goes side by side. -/
theorem parse_of_sides {text : String} (h : Sides text.toList left right) :
    parse text = (do
      let n ← (Decimal.parse 255 (Text.trim left)).mapError Fault.badIndex
      let data ←
        (Hex.decode (Utf8.encode (Text.trim right))).mapError Fault.badHex
      let value ← demand (FixedBytes.ofList? 48 data)
        (.badLength data.length)
      return (UInt8.ofNat n, value)) := by
  rw [parse, separate?_of_sides h]
  rfl

/-- A text is read as what it states. -/
theorem parse_eq_ok_iff {text : String} :
    parse text = .ok (index, value) ↔ States text index value := by
  constructor
  · intro h
    obtain ⟨⟨left, right⟩, hsides, -⟩ := bind_eq_ok_iff.1 h
    have hsides := separate?_eq_some_iff.1 (demand_eq_ok_iff.1 hsides)
    rw [parse_of_sides hsides] at h
    obtain ⟨n, hn, h⟩ := bind_eq_ok_iff.1 h
    obtain ⟨data, hdata, h⟩ := bind_eq_ok_iff.1 h
    obtain ⟨value, hvalue, h⟩ := bind_eq_ok_iff.1 h
    cases h
    obtain ⟨index, rfl, hindex⟩ :=
      parse_limited_eq_ok_iff.1 (mapError_eq_ok_iff.1 hn)
    obtain rfl :=
      FixedBytes.ofList?_eq_some_iff.1 (demand_eq_ok_iff.1 hvalue)
    rw [UInt8.ofNat_toNat]
    exact ⟨left, right, hsides, hindex,
      Hex.decode_trim_iff.1 (mapError_eq_ok_iff.1 hdata)⟩
  · rintro ⟨left, right, hsides, hindex, hvalue⟩
    have hn := parse_limited_eq_ok_iff.2 ⟨index, rfl, hindex⟩
    rw [parse_of_sides hsides, hn, Hex.decode_trim_iff.2 hvalue]
    show (demand (FixedBytes.ofList? 48 value.toList) _ >>= _) = _
    rw [FixedBytes.ofList?_toList, UInt8.ofNat_toNat]
    rfl

/-- The first stage is passed where there are two sides. -/
theorem passed_separator_iff :
    Stage.separator.Passed text ↔ ∃ sides, separate? text = some sides := by
  constructor
  · intro h
    obtain ⟨left, right, hsides⟩ := exists_sides h
    exact ⟨(left, right), separate?_of_sides hsides⟩
  · rintro ⟨⟨left, right⟩, hsides⟩
    exact (separate?_eq_some_iff.1 hsides).mem

section

variable (h : Sides text left right)
include h

/-- The second stage looks at the left side only. -/
theorem passed_index_iff :
    Stage.index.Passed text
      ↔ ∃ n, Decimal.parse 255 (Text.trim left) = .ok n := by
  constructor
  · rintro ⟨left', right', index, h', hindex⟩
    obtain ⟨rfl, rfl⟩ := h.unique h'
    exact ⟨_, parse_limited_eq_ok_iff.2 ⟨index, rfl, hindex⟩⟩
  · rintro ⟨n, hn⟩
    obtain ⟨index, -, hindex⟩ := parse_limited_eq_ok_iff.1 hn
    exact ⟨left, right, index, h, hindex⟩

/-- The third looks at the right side only. -/
theorem passed_digits_iff :
    Stage.digits.Passed text
      ↔ ∃ data, Hex.decode (Utf8.encode (Text.trim right)) = .ok data := by
  constructor
  · rintro ⟨left', right', data, h', hdata⟩
    obtain ⟨rfl, rfl⟩ := h.unique h'
    exact ⟨data, Hex.decode_trim_iff.2 hdata⟩
  · rintro ⟨data, hdata⟩
    exact ⟨left, right, data, h, Hex.decode_trim_iff.1 hdata⟩

/-- The last one counts the bytes that the digits spell. -/
theorem passed_length_iff
    (hdata : Hex.decode (Utf8.encode (Text.trim right)) = .ok data) :
    Stage.length.Passed text
      ↔ ∃ value, FixedBytes.ofList? 48 data = some value := by
  constructor
  · rintro ⟨left', right', data', h', hdata', hlength⟩
    obtain ⟨rfl, rfl⟩ := h.unique h'
    rw [Hex.decode_trim_iff.2 hdata'] at hdata
    cases hdata
    exact ⟨⟨data, hlength⟩, FixedBytes.ofList?_of_length hlength⟩
  · rintro ⟨value, hvalue⟩
    obtain rfl := FixedBytes.ofList?_eq_some_iff.1 hvalue
    exact ⟨left, right, value.toList, h, Hex.decode_trim_iff.1 hdata,
      value.length_eq⟩

end

/-- The stages are gone through in turn, and the first that fails ends
it. -/
theorem parse_namesFirst (text : String) :
    NamesFirst Stage.all (Stage.Passed text.toList) Fault.stage
      (parse text) := by
  unfold parse Stage.all
  refine .bind (.of_demand rfl passed_separator_iff) ?_
  rintro ⟨left, right⟩ hsides
  have hsides := separate?_eq_some_iff.1 (demand_eq_ok_iff.1 hsides)
  refine .bind (.of_mapError (fun _ => rfl) (passed_index_iff hsides)) ?_
  intro n _
  refine .bind (.of_mapError (fun _ => rfl) (passed_digits_iff hsides)) ?_
  intro data hdata
  have hdata := mapError_eq_ok_iff.1 hdata
  refine .bind (.of_demand rfl (passed_length_iff hsides hdata)) ?_
  intro value _
  exact .pure _

/-- A text is refused for the first stage that it fails at. -/
theorem parse_eq_error_iff {text : String} {stage : Stage} :
    (∃ fault, parse text = .error fault ∧ fault.stage = stage)
      ↔ FirstFailing Stage.all (Stage.Passed text.toList) stage :=
  (parse_namesFirst text).exists_error_iff

-- ============================================================ written

/-- The plain text of an expectation: no blanks, no sign, no leading
zeros, and small letters. -/
def write (index : UInt8) (value : Pcr) : String :=
  String.ofList
    (Nat.toDigits 10 index.toNat ++ '=' :: Hex.encode value.toList)

/-- The plain text of an expectation states it. -/
theorem states_write (index : UInt8) (value : Pcr) :
    States (write index value) index value := by
  refine ⟨Nat.toDigits 10 index.toNat, Hex.encode value.toList,
    ⟨?_, ?_⟩, ?_, ?_⟩
  · rw [write, String.toList_ofList]
  · intro hmem
    exact absurd (Nat.isDigit_of_mem_toDigits (by decide) (by decide) hmem)
      (by decide)
  · exact ⟨_, Text.Frames.refl _, Decimal.spells_toDigits index.toNat⟩
  · exact ⟨_, Text.Frames.refl _, Hex.map_toLower_encode value.toList⟩

/-- A text is read as an index and a value exactly if it states them,
and every index and value can be stated. A text that states nothing is
refused for the first stage that it fails at, whatever there is to say
about the later ones. -/
theorem parse_by_stages :
    (∀ text index value,
        parse text = .ok (index, value) ↔ States text index value)
      ∧ (∀ index value, parse (write index value) = .ok (index, value))
      ∧ ∀ (text : String) (stage : Stage),
        (∃ fault, parse text = .error fault ∧ fault.stage = stage)
          ↔ FirstFailing Stage.all (Stage.Passed text.toList) stage := by
  refine ⟨fun text index value => parse_eq_ok_iff,
    fun index value => ?_, fun text stage => parse_eq_error_iff⟩
  exact parse_eq_ok_iff.2 (states_write index value)

end Expectation

end Attestation
