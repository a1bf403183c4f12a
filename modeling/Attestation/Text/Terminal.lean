/-
Texts with marks for a terminal, and what is to be seen of them when the
marks are taken out. Taken out are whole escape sequences, control
sequences such as those that set a colour, the strings meant for a
device or for the terminal's own commands, and every control character
that is not white space.

A sequence that is cut short lasts until another one begins or the text
ends. White space is seen inside escape and control sequences and
suspends them: what follows it is seen as well, until the next
character that is never seen takes the sequence up again.

The lemmas say that a text is filtered piece by piece
(`filter_append`), that a text without control characters is seen whole
(`filter_of_plain`), and that the mark which ends a style also ends
everything that stood open before it (`after_plainStyle`).
-/
namespace Attestation

namespace Terminal

-- =========================================================== styles

/-- A style of text on a terminal. -/
inductive Style where
  /-- Bold and red. -/
  | alarm
  /-- Yellow. -/
  | wrong
  /-- Bold. -/
  | literal
deriving DecidableEq

/-- The mark that sets a style. -/
def Style.mark : Style → String
  | alarm => "\x1b[1m\x1b[31m"
  | wrong => "\x1b[33m"
  | literal => "\x1b[1m"

/-- The mark that ends every style. -/
def plainStyle : String :=
  "\x1b[0m"

/-- A text in a style. -/
def Style.apply (style : Style) (text : String) : String :=
  style.mark ++ text ++ plainStyle

-- ======================================================== sequences

/-- Which sequence a text is in. -/
inductive Stage where
  /-- None. -/
  | ground
  /-- An escape sequence, of which only the escape character stood so
  far. -/
  | escape
  /-- An escape sequence after its first intermediate character. -/
  | escapeIntermediate
  /-- A control sequence, which opens with an escape character and a
  bracket. -/
  | control
  /-- A device control string, of which only the opening stood so
  far. -/
  | deviceEntry
  /-- The parameters of a device control string. -/
  | deviceParameter
  /-- The intermediate characters of a device control string. -/
  | deviceIntermediate
  /-- A string that lasts until the byte 9C: the data of a device
  control string, a start of string, a privacy message or an
  application program command. -/
  | string
  /-- A command to the terminal, which lasts until a bell. -/
  | command
deriving DecidableEq

/-- Whether a character lies between two others, both included. -/
def between (low high c : Char) : Bool :=
  low ≤ c && c ≤ high

/-- Whether a control character is white space. -/
def isBlankControl (c : Char) : Bool :=
  c == '\t' || c == '\n' || c == '\x0c' || c == '\r'

/-- The stage after a character that is not seen. An escape character
begins a new sequence in every stage, and two control characters, CAN
and SUB, end the sequence in every stage. -/
def Stage.next (s : Stage) (c : Char) : Stage :=
  if c = '\x1b' then escape
  else if c = '\x18' ∨ c = '\x1a' then ground
  else
    match s with
    | ground => ground
    | escape =>
      if between ' ' '/' c then escapeIntermediate
      else if c = '[' then control
      else if c = ']' then command
      else if c = 'P' then deviceEntry
      else if c = 'X' ∨ c = '^' ∨ c = '_' then string
      else if between '0' '~' c then ground
      else escape
    | escapeIntermediate =>
      if between '0' '~' c then ground else escapeIntermediate
    | control => if between '@' '~' c then ground else control
    | deviceEntry =>
      if between ' ' '/' c then deviceIntermediate
      else if between '0' '?' c then deviceParameter
      else if between '@' '~' c then string
      else deviceEntry
    | deviceParameter =>
      if between ' ' '/' c then deviceIntermediate
      else if between '<' '~' c then string
      else deviceParameter
    | deviceIntermediate =>
      if between '0' '~' c then string else deviceIntermediate
    | string =>
      if (String.utf8EncodeChar c).contains 0x9c then ground else string
    | command => if c = '\x07' then ground else command

/-- Whether a character is seen in a stage. -/
def Stage.shows : Stage → Char → Bool
  | ground, c => isBlankControl c || (' ' ≤ c && c != '\x7f')
  | escape, c | escapeIntermediate, c | control, c => isBlankControl c
  | _, _ => false

-- ======================================================== filtering

/-- How far a text was filtered. -/
structure Progress where
  stage : Stage
  /-- Whether the last character was seen. -/
  suspended : Bool
deriving DecidableEq

namespace Progress

/-- No sequence is open. -/
def start : Progress :=
  ⟨.ground, false⟩

/-- Whether the next character is seen. A suspended sequence hides only
what is hidden everywhere. -/
def shows (p : Progress) (c : Char) : Bool :=
  (if p.suspended then Stage.ground else p.stage).shows c

/-- The progress after one more character. A character beyond ASCII
that is seen ends the sequence that it stands in. -/
def next (p : Progress) (c : Char) : Progress :=
  if p.shows c then
    ⟨if c.toNat < 128 then p.stage else .ground, true⟩
  else
    ⟨p.stage.next c, false⟩

/-- The progress after a text. -/
def after (p : Progress) (text : List Char) : Progress :=
  text.foldl next p

/-- The characters of a text that are seen. -/
def filter (p : Progress) : List Char → List Char
  | [] => []
  | c :: rest =>
    if p.shows c then c :: (p.next c).filter rest
    else (p.next c).filter rest

end Progress

/-- What is to be seen of a text. -/
def visible (text : String) : String :=
  String.ofList (Progress.start.filter text.toList)

-- ========================================================= the laws

namespace Progress

theorem filter_append (p : Progress) (first second : List Char) :
    p.filter (first ++ second)
      = p.filter first ++ (p.after first).filter second := by
  induction first generalizing p with
  | nil => rfl
  | cons c rest ih =>
    have hafter : p.after (c :: rest) = (p.next c).after rest := rfl
    rw [List.cons_append, filter, filter, ih, hafter]
    split
    · rfl
    · rfl

theorem filter_of_plain {p : Progress} {text : List Char}
    (hstage : p.stage = .ground)
    (hplain : ∀ c ∈ text, Stage.ground.shows c = true) :
    p.filter text = text := by
  induction text generalizing p with
  | nil => rfl
  | cons c rest ih =>
    have hshows : p.shows c = true := by
      unfold shows
      rw [hstage, ite_self]
      exact hplain c List.mem_cons_self
    have hnext : (p.next c).stage = .ground := by
      unfold next
      rw [if_pos hshows, hstage, ite_self]
    rw [filter, if_pos hshows,
      ih hnext fun d hd => hplain d (List.mem_cons_of_mem c hd)]

theorem after_plainStyle (p : Progress) :
    p.after plainStyle.toList = start := by
  obtain ⟨stage, suspended⟩ := p
  cases suspended <;> cases stage <;> decide

end Progress

end Terminal

end Attestation
