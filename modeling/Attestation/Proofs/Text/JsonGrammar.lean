/-
Which texts spell a JSON value, in the grammar of JSON as far as there
are values here: null, whole numbers, texts and objects. A text falls
into tokens with blanks around them (`Lexes`), and these are to be the
tokens of the value (`tokens`). Every spelling that JSON has for a
character is one, also those that are never printed, and so is every
layout.

A text has at most one reading (`Spells.unique`). What decides at every
place is the first character there, and the second one behind a
backslash. The argument has three levels, and each of them says that
what begins a text determines what it is and what is left of the text:

- a character within quotes (`SpellsChar.unique`), where an escape of
  four digits may be followed by another one for the same character; a
  first half never stands for a character by itself, so the two cases do
  not meet;
- a token (`Starts.unique`), where a numeral is the only one with no
  mark for its end and goes on as long as there are digits;
- a value (`tokens_inj`), where the tokens of fields are told from the
  closing mark by the comma in front of them.

For values the induction is on the value, in step with its fields, and
the other value is taken apart to the same depth.
-/
import Attestation.Proofs.Text.Hex
import Attestation.Text.Json

namespace Attestation

namespace Json

-- ========================================================= characters

/-- The character that a letter stands for behind a backslash. -/
def escaped? : Char → Option Char
  | '"' => some '"'
  | '\\' => some '\\'
  | '/' => some '/'
  | 'b' => some '\x08'
  | 'f' => some '\x0c'
  | 'n' => some '\n'
  | 'r' => some '\r'
  | 't' => some '\t'
  | _ => none

/-- Four hex digits of a number of sixteen bits. -/
def SpellsUnit (digits : List Char) (unit : Nat) : Prop :=
  ∃ data : Bytes, data.length = 2
    ∧ digits.map Char.toLower = Hex.encode data
    ∧ Bytes.bigEndian data = unit

/-- The spellings of a character behind a backslash. -/
inductive SpellsEscaped : List Char → Char → Prop
  | letter {e c : Char} (h : escaped? e = some c) : SpellsEscaped [e] c
  /-- The number of the character, of sixteen bits. -/
  | unit {digits : List Char} {c : Char}
    (h : SpellsUnit digits c.toNat) : SpellsEscaped ('u' :: digits) c
  /-- Its number as a pair of ten bits each, if it has more. -/
  | pair {first second : List Char} {c : Char} {high low : Nat}
    (hhigh : high < 1024) (hlow : low < 1024)
    (hfirst : SpellsUnit first (0xd800 + high))
    (hsecond : SpellsUnit second (0xdc00 + low))
    (hc : c.toNat = 0x10000 + 1024 * high + low) :
    SpellsEscaped ('u' :: (first ++ '\\' :: 'u' :: second)) c

/-- The spellings of a character inside quotes. -/
inductive SpellsChar : List Char → Char → Prop
  | plain {c : Char} (hquote : c ≠ '"') (hbackslash : c ≠ '\\')
    (hcontrol : 32 ≤ c.toNat) : SpellsChar [c] c
  | escaped {word : List Char} {c : Char} (h : SpellsEscaped word c) :
    SpellsChar ('\\' :: word) c

/-- The text up to a closing quote spells characters, and goes on behind
the quote. -/
inductive Quoted : List Char → List Char → List Char → Prop
  | done {rest : List Char} : Quoted ('"' :: rest) [] rest
  | more {word text value rest : List Char} {c : Char}
    (hc : SpellsChar word c) (h : Quoted text value rest) :
    Quoted (word ++ text) (c :: value) rest

-- ============================================================= tokens

/-- What a text is made of, apart from its blanks. -/
inductive Token where
  | opening
  | closing
  | colon
  | comma
  | null
  | number (value : Nat)
  | text (value : List Char)

/-- The tokens that have one spelling each. -/
def Token.word? : Token → Option (List Char)
  | .opening => some ['\x7b']
  | .closing => some ['\x7d']
  | .colon => some [':']
  | .comma => some [',']
  | .null => some ['n', 'u', 'l', 'l']
  | .number _ => none
  | .text _ => none

/-- Digits of which the first is no zero, or a zero alone. -/
structure IsNumeral (digits : List Char) : Prop where
  ne_nil : digits ≠ []
  isDigit : ∀ c ∈ digits, c.isDigit = true
  eq_zero : digits.head? = some '0' → digits = ['0']

def NoDigit (text : List Char) : Prop :=
  ∀ c ∈ text.head?, c.isDigit = false

/-- A text starts with a token and goes on behind it. A numeral is as
long as there are digits. -/
inductive Starts : List Char → Token → List Char → Prop
  | word {token : Token} {word rest : List Char}
    (h : token.word? = some word) : Starts (word ++ rest) token rest
  | number {digits rest : List Char} (h : IsNumeral digits)
    (hrest : NoDigit rest) :
    Starts (digits ++ rest) (.number (Nat.ofDigitChars 10 digits 0)) rest
  | text {body value rest : List Char} (h : Quoted body value rest) :
    Starts ('"' :: body) (.text value) rest

def blanks : List Char := [' ', '\t', '\n', '\r']

/-- A text is made of tokens with any blanks around them. -/
inductive Lexes : List Char → List Token → Prop
  | done : Lexes [] []
  | blank {c : Char} {text : List Char} {tokens : List Token}
    (hc : c ∈ blanks) (h : Lexes text tokens) : Lexes (c :: text) tokens
  | token {text rest : List Char} {token : Token} {tokens : List Token}
    (hstart : Starts text token rest) (h : Lexes rest tokens) :
    Lexes text (token :: tokens)

-- ============================================================= values

mutual

/-- The tokens of a value. -/
def tokens : Json → List Token
  | .null => [.null]
  | .number value => [.number value]
  | .text value => [.text value.toList]
  | .object [] => [.opening, .closing]
  | .object (field :: fields) =>
    .opening :: fieldTokens field ++ laterTokens fields ++ [.closing]

/-- The tokens of one field of an object. -/
def fieldTokens : String × Json → List Token
  | (name, value) => .text name.toList :: .colon :: tokens value

/-- The tokens of the fields after the first. -/
def laterTokens : List (String × Json) → List Token
  | [] => []
  | field :: fields => .comma :: fieldTokens field ++ laterTokens fields

end

/-- A text is a spelling of a value. -/
def Spells (text : List Char) (value : Json) : Prop :=
  Lexes text value.tokens

-- ============================================ one reading of characters

section

variable {digits word word' text text' value value' rest rest' : List Char}
  {c c' : Char} {m n : Nat}

theorem SpellsUnit.length_eq (h : SpellsUnit digits n) :
    digits.length = 4 := by
  obtain ⟨data, hlength, hdigits, -⟩ := h
  rw [← List.length_map Char.toLower, hdigits, Hex.length_encode, hlength]

/-- Four digits stand for one number. -/
theorem SpellsUnit.unique (h : SpellsUnit digits n)
    (h' : SpellsUnit digits m) : n = m := by
  obtain ⟨data, -, hdigits, rfl⟩ := h
  obtain ⟨data', -, hdigits', rfl⟩ := h'
  have hread := Hex.decode_encode_iff.2 hdigits
  rw [Hex.decode_encode_iff.2 hdigits'] at hread
  cases hread
  rfl

/-- Two spellings of numbers at one place are the same four digits. -/
theorem SpellsUnit.unique_of_append (h : SpellsUnit word n)
    (h' : SpellsUnit word' m) (heq : word ++ text = word' ++ text') :
    n = m ∧ text = text' := by
  obtain ⟨rfl, htext⟩ :=
    List.append_inj heq (h.length_eq.trans h'.length_eq.symm)
  exact ⟨h.unique h', htext⟩

/-- No character has one of the numbers that the first half of a pair
has. -/
theorem toNat_ne_surrogate (c : Char) {high : Nat} (hhigh : high < 1024) :
    c.toNat ≠ 0xd800 + high := by
  have hvalid : c.toNat < 0xd800 ∨ 0xdfff < c.toNat ∧ c.toNat < 0x110000 :=
    c.valid
  omega

/-- Behind a backslash, no spelling begins another. -/
theorem SpellsEscaped.unique (h : SpellsEscaped word c)
    (h' : SpellsEscaped word' c') (heq : word ++ text = word' ++ text') :
    c = c' ∧ text = text' := by
  cases h with
  | letter he =>
    cases h' with
    | letter he' =>
      cases heq
      exact ⟨Option.some.inj (he.symm.trans he'), rfl⟩
    | unit _ => cases heq; cases he
    | pair _ _ _ _ _ => cases heq; cases he
  | unit hdigits =>
    cases h' with
    | letter he' => cases heq; cases he'
    | unit hdigits' =>
      obtain ⟨hc, htext⟩ :=
        hdigits.unique_of_append hdigits' (List.cons.inj heq).2
      exact ⟨Char.toNat_inj.1 hc, htext⟩
    | pair hhigh _ hfirst _ _ =>
      simp only [List.cons_append, List.append_assoc] at heq
      have hc := hdigits.unique_of_append hfirst (List.cons.inj heq).2
      exact absurd hc.1 (toNat_ne_surrogate c hhigh)
  | pair hhigh hlow hfirst hsecond hvalue =>
    simp only [List.cons_append, List.append_assoc] at heq
    cases h' with
    | letter he' => cases heq; cases he'
    | unit hdigits' =>
      have hc := hfirst.unique_of_append hdigits' (List.cons.inj heq).2
      exact absurd hc.1.symm (toNat_ne_surrogate c' hhigh)
    | pair _ _ hfirst' hsecond' hvalue' =>
      simp only [List.cons_append, List.append_assoc] at heq
      obtain ⟨hsame, hbehind⟩ :=
        hfirst.unique_of_append hfirst' (List.cons.inj heq).2
      simp only [List.cons.injEq, true_and] at hbehind
      obtain ⟨hsame', htext⟩ := hsecond.unique_of_append hsecond' hbehind
      refine ⟨Char.toNat_inj.1 ?_, htext⟩
      omega

theorem SpellsChar.first (h : SpellsChar word c) :
    ∃ d more, word = d :: more ∧ d ≠ '"' := by
  cases h with
  | plain hquote _ _ => exact ⟨c, [], rfl, hquote⟩
  | escaped _ => exact ⟨'\\', _, rfl, by decide⟩

/-- No spelling of a character begins another. -/
theorem SpellsChar.unique (h : SpellsChar word c)
    (h' : SpellsChar word' c') (heq : word ++ text = word' ++ text') :
    c = c' ∧ text = text' := by
  cases h with
  | plain _ hbackslash _ =>
    cases h' with
    | plain _ _ _ =>
      cases heq
      exact ⟨rfl, rfl⟩
    | escaped _ => exact absurd (List.cons.inj heq).1 hbackslash
  | escaped hword =>
    cases h' with
    | plain _ hbackslash _ =>
      exact absurd (List.cons.inj heq).1.symm hbackslash
    | escaped hword' => exact hword.unique hword' (List.cons.inj heq).2

/-- By induction on the characters. A quote ends the text for both. -/
theorem Quoted.unique (h : Quoted text value rest)
    (h' : Quoted text value' rest') : value = value' ∧ rest = rest' := by
  induction h generalizing value' with
  | @done after =>
    generalize htext : '"' :: after = text at h'
    cases h' with
    | done =>
      cases htext
      exact ⟨rfl, rfl⟩
    | more hc _ =>
      obtain ⟨d, more, rfl, hd⟩ := hc.first
      exact absurd (List.cons.inj htext).1.symm hd
  | @more word body _ _ _ hc _ ih =>
    generalize htext : word ++ body = text at h'
    cases h' with
    | done =>
      obtain ⟨d, more, rfl, hd⟩ := hc.first
      exact absurd (List.cons.inj htext).1 hd
    | more hc' h' =>
      obtain ⟨rfl, rfl⟩ := hc.unique hc' htext
      obtain ⟨rfl, hrest⟩ := ih h'
      exact ⟨rfl, hrest⟩

end

-- ================================================ one reading of tokens

section

variable {token token' : Token} {text rest rest' word word' : List Char}
  {c : Char}

/-- By induction on the digits of the first. Where they end, those of
the second do. -/
theorem append_noDigit_inj (hword : ∀ c ∈ word, c.isDigit = true)
    (hword' : ∀ c ∈ word', c.isDigit = true) (hrest : NoDigit rest)
    (hrest' : NoDigit rest') (heq : word ++ rest = word' ++ rest') :
    word = word' ∧ rest = rest' := by
  induction word generalizing word' with
  | nil =>
    cases word' with
    | nil => exact ⟨rfl, heq⟩
    | cons d more =>
      have hd : d.isDigit = false := by
        apply hrest d
        rw [show rest = d :: more ++ rest' from heq]
        rfl
      exact absurd (hword' d List.mem_cons_self) (by simp [hd])
  | cons c more ih =>
    cases word' with
    | nil =>
      have hc : c.isDigit = false := by
        apply hrest' c
        rw [show rest' = c :: more ++ rest from heq.symm]
        rfl
      exact absurd (hword c List.mem_cons_self) (by simp [hc])
    | cons d more' =>
      obtain ⟨rfl, htail⟩ := List.cons.inj heq
      obtain ⟨rfl, hsame⟩ := ih (List.forall_mem_cons.1 hword).2
        (List.forall_mem_cons.1 hword').2 htail
      exact ⟨rfl, hsame⟩

theorem IsNumeral.first (h : IsNumeral word) :
    ∃ c more, word = c :: more ∧ c.isDigit = true := by
  obtain ⟨c, more, rfl⟩ := List.exists_cons_of_ne_nil h.ne_nil
  exact ⟨c, more, rfl, h.isDigit c List.mem_cons_self⟩

theorem Token.first_of_word? (h : token.word? = some word) :
    ∃ c more, word = c :: more ∧ c ∉ blanks ∧ c.isDigit = false
      ∧ c ≠ '"' := by
  cases token with
  | opening => cases h; exact ⟨_, _, rfl, by decide⟩
  | closing => cases h; exact ⟨_, _, rfl, by decide⟩
  | colon => cases h; exact ⟨_, _, rfl, by decide⟩
  | comma => cases h; exact ⟨_, _, rfl, by decide⟩
  | null => cases h; exact ⟨_, _, rfl, by decide⟩
  | number _ => cases h
  | text _ => cases h

/-- No mark is the beginning of another one. -/
theorem Token.word?_inj (h : token.word? = some word)
    (h' : token'.word? = some word') (heq : word ++ rest = word' ++ rest') :
    token = token' ∧ rest = rest' := by
  cases token <;> cases h <;> cases token' <;> cases h' <;> cases heq
    <;> exact ⟨rfl, rfl⟩

theorem word_ne_numeral (h : token.word? = some word)
    (h' : IsNumeral word') : word ++ rest ≠ word' ++ rest' := by
  obtain ⟨c, _, rfl, -, hc, -⟩ := Token.first_of_word? h
  obtain ⟨d, _, rfl, hd⟩ := h'.first
  intro heq
  rw [(List.cons.inj heq).1, hd] at hc
  cases hc

theorem word_ne_text (h : token.word? = some word) :
    word ++ rest ≠ '"' :: rest' := by
  obtain ⟨c, _, rfl, -, -, hc⟩ := Token.first_of_word? h
  exact fun heq => hc (List.cons.inj heq).1

theorem numeral_ne_text (h : IsNumeral word) :
    word ++ rest ≠ '"' :: rest' := by
  obtain ⟨c, _, rfl, hc⟩ := h.first
  intro heq
  rw [(List.cons.inj heq).1] at hc
  cases hc

/-- Words, numerals and quoted texts start with different characters,
and none of them with a blank. -/
theorem Starts.first (h : Starts text token rest) :
    ∃ c more, text = c :: more ∧ c ∉ blanks := by
  cases h with
  | word hword =>
    obtain ⟨c, more, rfl, hc, -⟩ := Token.first_of_word? hword
    exact ⟨c, _, rfl, hc⟩
  | number hdigits _ =>
    obtain ⟨c, more, rfl, hc⟩ := hdigits.first
    refine ⟨c, _, rfl, fun hblank => ?_⟩
    have hall : blanks.all (fun c => !c.isDigit) = true := by decide
    have hnone := List.all_eq_true.1 hall c hblank
    rw [hc] at hnone
    cases hnone
  | text _ => exact ⟨'"', _, rfl, by decide⟩

/-- What begins a text, a token, is determined, and so is what follows
it. -/
theorem Starts.unique (h : Starts text token rest)
    (h' : Starts text token' rest') : token = token' ∧ rest = rest' := by
  cases h with
  | @word _ word _ hword =>
    generalize htext : word ++ rest = text at h'
    cases h' with
    | word hword' => exact Token.word?_inj hword hword' htext
    | number hdigits _ => exact absurd htext (word_ne_numeral hword hdigits)
    | text _ => exact absurd htext (word_ne_text hword)
  | @number digits _ hdigits hend =>
    generalize htext : digits ++ rest = text at h'
    cases h' with
    | word hword =>
      exact absurd htext.symm (word_ne_numeral hword hdigits)
    | number hdigits' hend' =>
      obtain ⟨rfl, hrest⟩ := append_noDigit_inj hdigits.isDigit
        hdigits'.isDigit hend hend' htext
      exact ⟨rfl, hrest⟩
    | text _ => exact absurd htext (numeral_ne_text hdigits)
  | @text body _ _ hquoted =>
    generalize htext : '"' :: body = text at h'
    cases h' with
    | word hword => exact absurd htext.symm (word_ne_text hword)
    | number hdigits _ => exact absurd htext.symm (numeral_ne_text hdigits)
    | text hquoted' =>
      cases htext
      obtain ⟨rfl, hrest⟩ := hquoted.unique hquoted'
      exact ⟨rfl, hrest⟩

/-- By induction on the tokens of the first reading. -/
theorem Lexes.unique {ts ts' : List Token} (h : Lexes text ts)
    (h' : Lexes text ts') : ts = ts' := by
  induction h generalizing ts' with
  | done =>
    cases h' with
    | done => rfl
    | token hstart _ =>
      obtain ⟨c, more, hnil, -⟩ := hstart.first
      cases hnil
  | blank hc _ ih =>
    cases h' with
    | blank _ h' => exact ih h'
    | token hstart _ =>
      obtain ⟨d, more, htext, hd⟩ := hstart.first
      cases htext
      exact absurd hc hd
  | token hstart _ ih =>
    cases h' with
    | done =>
      obtain ⟨c, more, hnil, -⟩ := hstart.first
      cases hnil
    | blank hc _ =>
      obtain ⟨d, more, htext, hd⟩ := hstart.first
      cases htext
      exact absurd hc hd
    | token hstart' h' =>
      obtain ⟨rfl, rfl⟩ := hstart.unique hstart'
      rw [ih h']

end

-- ================================================ one reading of values

mutual

/-- The tokens of no value begin those of another. -/
theorem tokens_inj {v w : Json} {rest rest' : List Token}
    (heq : v.tokens ++ rest = w.tokens ++ rest') : v = w ∧ rest = rest' := by
  match v, w with
  | .null, .null =>
    cases heq
    exact ⟨rfl, rfl⟩
  | .number m, .number n =>
    cases heq
    exact ⟨rfl, rfl⟩
  | .text s, .text t =>
    obtain ⟨hvalue, hrest⟩ := List.cons.inj heq
    have hs : s = t := String.toList_inj.1 (Token.text.inj hvalue)
    exact ⟨congrArg Json.text hs, hrest⟩
  | .object [], .object [] =>
    cases heq
    exact ⟨rfl, rfl⟩
  | .object (f :: fs), .object (g :: gs) =>
    simp only [tokens, List.cons_append, List.append_assoc,
      List.cons.injEq, true_and, List.nil_append] at heq
    obtain ⟨rfl, hlater⟩ := fieldTokens_inj heq
    obtain ⟨rfl, hrest⟩ := laterTokens_inj hlater
    exact ⟨rfl, hrest⟩
  -- the first two tokens tell everything else apart
  | .null, .number _ | .null, .text _ | .null, .object []
  | .null, .object (_ :: _) | .number _, .null | .number _, .text _
  | .number _, .object [] | .number _, .object (_ :: _) | .text _, .null
  | .text _, .number _ | .text _, .object [] | .text _, .object (_ :: _)
  | .object [], .null | .object [], .number _ | .object [], .text _
  | .object [], .object ((_, _) :: _) | .object (_ :: _), .null
  | .object (_ :: _), .number _ | .object (_ :: _), .text _
  | .object ((_, _) :: _), .object [] => cases heq

/-- The tokens of a field in front of others determine the field. -/
theorem fieldTokens_inj {f g : String × Json} {rest rest' : List Token}
    (heq : fieldTokens f ++ rest = fieldTokens g ++ rest') :
    f = g ∧ rest = rest' := by
  match f, g with
  | (name, v), (name', w) =>
    simp only [fieldTokens, List.cons_append, List.cons.injEq,
      Token.text.injEq, true_and, String.toList_inj] at heq
    obtain ⟨rfl, hvalue⟩ := heq
    obtain ⟨rfl, hrest⟩ := tokens_inj hvalue
    exact ⟨rfl, hrest⟩

/-- The tokens of fields up to the closing mark determine the fields. -/
theorem laterTokens_inj {fs gs : List (String × Json)}
    {rest rest' : List Token}
    (heq : laterTokens fs ++ .closing :: rest
      = laterTokens gs ++ .closing :: rest') : fs = gs ∧ rest = rest' := by
  match fs, gs with
  | [], [] =>
    cases heq
    exact ⟨rfl, rfl⟩
  | [], g :: gs => cases heq
  | f :: fs, [] => cases heq
  | f :: fs, g :: gs =>
    simp only [laterTokens, List.cons_append, List.append_assoc,
      List.cons.injEq, true_and] at heq
    obtain ⟨rfl, hlater⟩ := fieldTokens_inj heq
    obtain ⟨rfl, hrest⟩ := laterTokens_inj hlater
    exact ⟨rfl, hrest⟩

end

/-- A text spells at most one value. -/
theorem Spells.unique {text : List Char} {v w : Json}
    (h : Spells text v) (h' : Spells text w) : v = w := by
  have htokens : v.tokens ++ [] = w.tokens ++ [] :=
    congrArg (· ++ []) (Lexes.unique h h')
  exact (tokens_inj htokens).1

end Json

end Attestation
