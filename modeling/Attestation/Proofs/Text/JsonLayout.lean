/-
The indented text of a value spells it (`lexes_render`), so the text is
well-formed and has no other reading (`spells_pretty_iff`). Every
character is escaped into a spelling of itself, so no text closes its
own quotes, and what stands around the fields of an object are blanks
and the marks between them.

Each part of the printed text is put in front of a text that falls into
tokens already, and makes it fall into the tokens of the part and those.
In this form the parts can be composed in the order in which they are
printed, and the induction over a value and its fields needs no
statement about texts that are cut in two.

A numeral is the only part that has to know what follows, as it would
run on into more digits. What follows a value is the end of the text, a
comma or a new line, and none of them is a digit (`NoDigit`); this is
the one condition that is handed through the induction.
-/
import Attestation.Proofs.Text.JsonGrammar

namespace Attestation

namespace Json

variable {rest : List Char} {ts : List Token} {c : Char}

-- ============================================================== texts

/-- A control character is the last byte of its four digits. -/
theorem spellsUnit_control (hc : c.toNat < 32) :
    SpellsUnit ['0', '0', Hex.digit (c.toNat / 16), Hex.digit (c.toNat % 16)]
      c.toNat := by
  have hall : ∀ n < 32,
      ['0', '0', Hex.digit (n / 16), Hex.digit (n % 16)].map Char.toLower
          = Hex.encode [0, UInt8.ofNat n]
        ∧ Bytes.bigEndian [0, UInt8.ofNat n] = n := by
    decide +kernel
  obtain ⟨hdigits, hvalue⟩ := hall c.toNat hc
  exact ⟨[0, UInt8.ofNat c.toNat], rfl, hdigits, hvalue⟩

/-- A character is escaped by the letter that stands for it, by its
number, or not at all. -/
theorem spellsChar_escape (c : Char) : SpellsChar (escape c) c := by
  unfold escape
  split
  case isTrue h => subst h; exact .escaped (.letter rfl)
  split
  case isTrue h => subst h; exact .escaped (.letter rfl)
  split
  case isTrue h => subst h; exact .escaped (.letter rfl)
  split
  case isTrue h => subst h; exact .escaped (.letter rfl)
  split
  case isTrue h => subst h; exact .escaped (.letter rfl)
  split
  case isTrue h => subst h; exact .escaped (.letter rfl)
  split
  case isTrue h => subst h; exact .escaped (.letter rfl)
  split
  case isTrue h => exact .escaped (.unit (spellsUnit_control h))
  case isFalse hquote hbackslash _ _ _ _ _ hcontrol =>
    exact .plain hquote hbackslash (Nat.le_of_not_lt hcontrol)

/-- A text with each character escaped, and a quotation mark behind it,
is read as the text up to that mark. -/
theorem quoted_escape (text rest : List Char) :
    Quoted (text.flatMap escape ++ '"' :: rest) text rest := by
  induction text with
  | nil => exact .done
  | cons c more ih =>
    rw [List.flatMap_cons, List.append_assoc]
    exact .more (spellsChar_escape c) ih

theorem lexes_quote (text : List Char) (h : Lexes rest ts) :
    Lexes (quote text ++ rest) (.text text :: ts) := by
  have hstart : Starts (quote text ++ rest) (.text text) rest := by
    rw [quote, List.cons_append, List.cons_append, List.append_assoc]
    exact .text (quoted_escape text rest)
  exact .token hstart h

-- ============================================================ numerals

theorem head?_toDigits_ne_zero {n : Nat} (h : 0 < n) :
    (Nat.toDigits 10 n).head? ≠ some '0' := by
  induction n using Nat.strongRecOn with
  | ind n ih =>
    by_cases hsmall : n < 10
    · rw [Nat.toDigits_of_lt_base hsmall]
      have hall : ∀ m < 10, 0 < m → [Nat.digitChar m].head? ≠ some '0' := by
        decide
      exact hall n hsmall h
    · have hsplit := Nat.toDigits_of_base_le (b := 10) (n := n) (by decide)
        (Nat.le_of_not_lt hsmall)
      rw [hsplit, List.head?_append_of_ne_nil _ Nat.toDigits_ne_nil]
      exact ih (n / 10) (by omega) (by omega)

/-- Numbers are printed without leading zeros. -/
theorem isNumeral_toDigits (n : Nat) : IsNumeral (Nat.toDigits 10 n) where
  ne_nil := Nat.toDigits_ne_nil
  isDigit _ hc := Nat.isDigit_of_mem_toDigits (by decide) (by decide) hc
  eq_zero h := by
    cases n with
    | zero => rfl
    | succ n => exact absurd h (head?_toDigits_ne_zero n.succ_pos)

theorem lexes_toDigits (n : Nat) (hrest : NoDigit rest) (h : Lexes rest ts) :
    Lexes (Nat.toDigits 10 n ++ rest) (.number n :: ts) := by
  have hstart := Starts.number (isNumeral_toDigits n) hrest
  rw [Nat.ofDigitChars_toDigits (by decide) (by decide)] at hstart
  exact .token hstart h

-- ============================================================= layout

theorem lexes_mark (token : Token) (hc : token.word? = some [c])
    (h : Lexes rest ts) : Lexes (c :: rest) (token :: ts) :=
  .token (.word hc) h

/-- Blanks belong to no token. -/
theorem lexes_blanks {gap : List Char} (hgap : ∀ c ∈ gap, c ∈ blanks)
    (h : Lexes rest ts) : Lexes (gap ++ rest) ts := by
  induction gap with
  | nil => exact h
  | cons c more ih =>
    obtain ⟨hc, hmore⟩ := List.forall_mem_cons.1 hgap
    exact .blank hc (ih hmore)

theorem mem_blanks_of_mem_newline {depth : Nat} (h : c ∈ newline depth) :
    c ∈ blanks := by
  rcases List.mem_cons.1 h with rfl | hc
  · decide
  · rw [List.eq_of_mem_replicate hc]
    decide

theorem lexes_newline (depth : Nat) (h : Lexes rest ts) :
    Lexes (newline depth ++ rest) ts :=
  lexes_blanks (fun _ => mem_blanks_of_mem_newline) h

theorem noDigit_newline (depth : Nat) : NoDigit (newline depth ++ rest) := by
  intro c hc
  cases hc
  rfl

theorem noDigit_renderFields {depth : Nat} {fields : List (String × Json)}
    (h : NoDigit rest) : NoDigit (renderFields depth fields ++ rest) := by
  cases fields with
  | nil => exact h
  | cons field fields =>
    intro c hc
    rw [renderFields] at hc
    cases hc
    rfl

-- ============================================================= values

mutual

/-- By recursion on the value, like the text. What follows is no digit,
so numerals end where they do. -/
theorem lexes_render {rest : List Char} {ts : List Token} (depth : Nat)
    (v : Json) (hrest : NoDigit rest) (h : Lexes rest ts) :
    Lexes (render depth v ++ rest) (v.tokens ++ ts) := by
  match v with
  | .null =>
    rw [render, tokens]
    exact .token (.word rfl) h
  | .number n =>
    rw [render, tokens]
    exact lexes_toDigits n hrest h
  | .text s =>
    rw [render, tokens]
    exact lexes_quote s.toList h
  | .object [] =>
    rw [render, tokens]
    exact lexes_mark .opening rfl (lexes_mark .closing rfl h)
  | .object (f :: fs) =>
    have hclose := lexes_newline depth (lexes_mark .closing rfl h)
    have hlater := lexes_renderFields (depth + 1) fs
      (noDigit_newline depth) hclose
    have hfirst := lexes_renderField (depth + 1) f
      (noDigit_renderFields (noDigit_newline depth)) hlater
    have hopen :=
      lexes_mark .opening rfl (lexes_newline (depth + 1) hfirst)
    rw [render, tokens]
    simpa only [List.cons_append, List.append_assoc, List.nil_append]
      using hopen

/-- A printed field falls into its tokens. -/
theorem lexes_renderField {rest : List Char} {ts : List Token}
    (depth : Nat) (f : String × Json) (hrest : NoDigit rest)
    (h : Lexes rest ts) :
    Lexes (renderField depth f ++ rest) (fieldTokens f ++ ts) := by
  match f with
  | (name, v) =>
    have hspace : ' ' ∈ blanks := by decide
    have hvalue := Lexes.blank hspace (lexes_render depth v hrest h)
    have hname := lexes_quote name.toList (lexes_mark .colon rfl hvalue)
    rw [renderField, fieldTokens]
    simpa only [List.cons_append, List.append_assoc, List.nil_append]
      using hname

/-- Printed fields fall into the tokens of each with commas in front. -/
theorem lexes_renderFields {rest : List Char} {ts : List Token}
    (depth : Nat) (fs : List (String × Json)) (hrest : NoDigit rest)
    (h : Lexes rest ts) :
    Lexes (renderFields depth fs ++ rest) (laterTokens fs ++ ts) := by
  match fs with
  | [] =>
    rw [renderFields, laterTokens]
    exact h
  | f :: fs =>
    have hlater := lexes_renderFields depth fs hrest h
    have hfirst := lexes_renderField depth f (noDigit_renderFields hrest)
      hlater
    have hcomma := lexes_mark .comma rfl (lexes_newline depth hfirst)
    rw [renderFields, laterTokens]
    simpa only [List.cons_append, List.append_assoc] using hcomma

end

/-- The text of a value, with a line break behind it, spells the value
and no other. -/
theorem spells_pretty_iff {v w : Json} :
    Spells (v.pretty ++ "\n").toList w ↔ w = v := by
  have hspells : Spells (v.pretty ++ "\n").toList v := by
    have hbreak : Lexes ['\n'] [] := .blank (by decide) .done
    have hend : NoDigit ['\n'] := fun c hc => by cases hc; rfl
    have h := lexes_render 0 v hend hbreak
    rw [List.append_nil] at h
    rw [pretty, String.toList_append, String.toList_ofList]
    exact h
  constructor
  · intro h
    exact h.unique hspells
  · rintro rfl
    exact hspells

end Json

end Attestation
