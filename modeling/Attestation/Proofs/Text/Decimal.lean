/-
Numbers in decimal. `Spells` is the form that is accepted, one or more
digits behind at most one plus sign, and a text is read as a number
exactly if it spells it and the number is within the limit
(`parse_eq_ok_iff`). So leading zeros are allowed, however many, and a
number that is too large is refused however it is spelled.

The reader looks for the limit at each digit, before it goes on, and not
at the end. That comes to the same because the number of the digits so
far never falls when more of them follow (`le_ofDigitChars`): once it is
too large it stays so. The induction is on the digits with the number so
far as its parameter (`parseFrom_eq_ok_iff`).

Where the plus sign is looked for there are two cases, a text that has
one and a text that has none; a plus sign is no digit, so a text cannot
be read both ways.
-/
import Attestation.Proofs.Text.Blank
import Attestation.Text.Decimal

namespace Attestation

namespace Decimal

variable {limit start n : Nat} {c : Char} {text : List Char}

/-- Digits spell a number, with or without a plus sign before them. -/
def Spells (text : List Char) (n : Nat) : Prop :=
  ∃ digits : List Char, (text = digits ∨ text = '+' :: digits)
    ∧ digits ≠ [] ∧ (∀ c ∈ digits, c.isDigit = true)
    ∧ Nat.ofDigitChars 10 digits 0 = n

-- ============================================================= digits

theorem digit?_of_isDigit (h : c.isDigit = true) :
    digit? c = some (c.toNat - 48) := by
  obtain ⟨hlow, hhigh⟩ := Char.isDigit_iff_toNat.1 h
  exact if_pos ⟨hlow, hhigh⟩

theorem digit?_of_not_isDigit (h : ¬c.isDigit = true) :
    digit? c = none := by
  apply if_neg
  rintro ⟨hlow, hhigh⟩
  exact h (Char.isDigit_iff_toNat.2 ⟨hlow, hhigh⟩)

/-- More digits make no number smaller. -/
theorem le_ofDigitChars (start : Nat) (text : List Char) :
    start ≤ Nat.ofDigitChars 10 text start := by
  induction text generalizing start with
  | nil => simp
  | cons c rest ih =>
    rw [Nat.ofDigitChars_cons]
    exact Nat.le_trans (by omega) (ih _)

/-- By induction on the digits that are left. The number so far only
grows, so a digit is refused as one too many exactly if the whole number
is too large. -/
theorem parseFrom_eq_ok_iff (hstart : start ≤ limit) :
    parseFrom limit start text = .ok n
      ↔ (∀ c ∈ text, c.isDigit = true)
        ∧ Nat.ofDigitChars 10 text start = n ∧ n ≤ limit := by
  induction text generalizing start with
  | nil =>
    simp only [parseFrom, Nat.ofDigitChars_nil, Except.ok.injEq]
    constructor
    · rintro rfl
      exact ⟨List.forall_mem_nil _, rfl, hstart⟩
    · rintro ⟨-, hsame, -⟩
      exact hsame
  | cons c rest ih =>
    rw [parseFrom, List.forall_mem_cons, Nat.ofDigitChars_cons]
    by_cases hc : c.isDigit = true
    · rw [digit?_of_isDigit hc]
      have hgrows := le_ofDigitChars (10 * start + (c.toNat - '0'.toNat)) rest
      by_cases hfits : 10 * start + (c.toNat - 48) ≤ limit
      · simp only [hfits, if_true, ih hfits, hc, true_and]
        rfl
      · simp only [hfits, if_false]
        refine ⟨nofun, ?_⟩
        rintro ⟨-, rfl, hlimit⟩
        exact absurd (Nat.le_trans hgrows hlimit) hfits
    · rw [digit?_of_not_isDigit hc]
      refine ⟨nofun, ?_⟩
      rintro ⟨⟨hdigit, -⟩, -⟩
      exact absurd hdigit hc

-- ============================================================ numbers

/-- A plus sign is no digit, so it is not itself part of the number. -/
theorem spells_plus_iff :
    Spells ('+' :: text) n
      ↔ text ≠ [] ∧ (∀ c ∈ text, c.isDigit = true)
        ∧ Nat.ofDigitChars 10 text 0 = n := by
  constructor
  · rintro ⟨digits, hdigits | hdigits, hspells⟩
    · subst hdigits
      exact absurd (hspells.2.1 '+' List.mem_cons_self) (by decide)
    · cases hdigits
      exact hspells
  · intro h
    exact ⟨text, Or.inr rfl, h⟩

theorem spells_iff_of_ne_plus (h : c ≠ '+') :
    Spells (c :: text) n
      ↔ (∀ d ∈ c :: text, d.isDigit = true)
        ∧ Nat.ofDigitChars 10 (c :: text) 0 = n := by
  constructor
  · rintro ⟨digits, hdigits | hdigits, -, hspells⟩
    · subst hdigits
      exact hspells
    · cases hdigits
      exact absurd rfl h
  · intro hspells
    exact ⟨c :: text, Or.inl rfl, List.cons_ne_nil _ _, hspells⟩

/-- A number spells itself. -/
theorem spells_toDigits (n : Nat) : Spells (Nat.toDigits 10 n) n := by
  refine ⟨_, Or.inl rfl, Nat.toDigits_ne_nil, fun c hc => ?_, ?_⟩
  · exact Nat.isDigit_of_mem_toDigits (by decide) (by decide) hc
  · exact Nat.ofDigitChars_toDigits (by decide) (by decide)

/-- A text is read as a number if it spells it and the number is within
the limit. -/
theorem parse_eq_ok_iff :
    parse limit text = .ok n ↔ Spells text n ∧ n ≤ limit := by
  rcases text with _ | ⟨c, rest⟩
  · simp [parse, Spells]
  · by_cases hc : c = '+'
    · subst hc
      rw [spells_plus_iff]
      rcases rest with _ | ⟨d, rest⟩
      · simp [parse]
      · rw [parse, parseFrom_eq_ok_iff (Nat.zero_le _)]
        · simp [and_assoc]
        · simp
    · have hparse : parse limit (c :: rest)
          = parseFrom limit 0 (c :: rest) := by
        rw [parse]
        · simp
        · simp [hc]
        · simp [hc]
      rw [hparse, parseFrom_eq_ok_iff (Nat.zero_le _),
        spells_iff_of_ne_plus hc, and_assoc]

/-- With the largest word as the limit, the words are what is read. -/
theorem parseWord_eq_ok_iff {word : UInt64} :
    parseWord text = .ok word ↔ Spells text word.toNat := by
  unfold parseWord
  constructor
  · intro h
    cases hparse : parse maxWord text with
    | error fault =>
      rw [hparse] at h
      cases h
    | ok n =>
      rw [hparse] at h
      cases h
      obtain ⟨hspells, hlimit⟩ := parse_eq_ok_iff.1 hparse
      rw [UInt64.toNat_ofNat_of_lt' (Nat.lt_of_le_pred (by decide) hlimit)]
      exact hspells
  · intro h
    have hparse : parse maxWord text = .ok word.toNat :=
      parse_eq_ok_iff.2 ⟨h, Nat.le_pred_of_lt word.toNat_lt⟩
    rw [hparse]
    exact congrArg Except.ok UInt64.ofNat_toNat

-- ============================================================= blanks

theorem visible_of_isDigit (h : c.isDigit = true) : Utf8.Visible c := by
  have hdigit : 48 ≤ c.toNat ∧ c.toNat ≤ 57 := Char.isDigit_iff_toNat.1 h
  exact ⟨by omega, by omega⟩

/-- There is no blank in a number. -/
theorem Spells.visible (h : Spells text n) : ∀ c ∈ text, Utf8.Visible c := by
  obtain ⟨digits, htext, -, hdigits, -⟩ := h
  have hall : ∀ c ∈ digits, Utf8.Visible c :=
    fun c hc => visible_of_isDigit (hdigits c hc)
  rcases htext with rfl | rfl
  · exact hall
  · have hplus : Utf8.Visible '+' := ⟨by decide, by decide⟩
    exact List.forall_mem_cons.2 ⟨hplus, hall⟩

/-- With blanks around it allowed, a number is spelled by a word between
blanks. -/
theorem spells_trim_iff :
    Spells (Text.trim text) n
      ↔ ∃ word, Text.Frames word text ∧ Spells word n :=
  Text.trim_iff (P := (Spells · n)) fun _ h => h.visible

end Decimal

end Attestation
