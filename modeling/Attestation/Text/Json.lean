/-
JSON values and their indented text. Only what a report needs is here:
null, whole numbers, texts and objects with their fields in order. An
object's fields stand one to a line, indented by two spaces for each
object around them.
-/
import Attestation.Text.Hex

namespace Attestation

inductive Json where
  | null
  | number (value : Nat)
  | text (value : String)
  | object (fields : List (String × Json))

namespace Json

-- ============================================================ texts

/-- One character inside quotes. The quote, the backslash and the
characters below U+0020 are written with a backslash, and everything
else as it is. -/
def escape (c : Char) : List Char :=
  if c = '"' then ['\\', '"']
  else if c = '\\' then ['\\', '\\']
  else if c = '\x08' then ['\\', 'b']
  else if c = '\x0c' then ['\\', 'f']
  else if c = '\n' then ['\\', 'n']
  else if c = '\r' then ['\\', 'r']
  else if c = '\t' then ['\\', 't']
  else if c.toNat < 32 then
    ['\\', 'u', '0', '0', Hex.digit (c.toNat / 16),
      Hex.digit (c.toNat % 16)]
  else [c]

def quote (text : List Char) : List Char :=
  '"' :: text.flatMap escape ++ ['"']

-- =========================================================== layout

/-- A line break and the indentation at a depth. -/
def newline (depth : Nat) : List Char :=
  '\n' :: List.replicate (2 * depth) ' '

mutual

/-- The text of a value that stands inside `depth` objects. -/
def render (depth : Nat) : Json → List Char
  | .null => ['n', 'u', 'l', 'l']
  | .number value => Nat.toDigits 10 value
  | .text value => quote value.toList
  | .object [] => ['\x7b', '\x7d']
  | .object (field :: fields) =>
    '\x7b' :: newline (depth + 1) ++ renderField (depth + 1) field
      ++ renderFields (depth + 1) fields ++ newline depth ++ ['\x7d']

/-- The text of one field of an object. -/
def renderField (depth : Nat) : String × Json → List Char
  | (name, value) =>
    quote name.toList ++ [':', ' '] ++ render depth value

/-- The text of the fields after the first. -/
def renderFields (depth : Nat) : List (String × Json) → List Char
  | [] => []
  | field :: fields =>
    ',' :: newline depth ++ renderField depth field
      ++ renderFields depth fields

end

/-- The indented text of a value. -/
def pretty (value : Json) : String :=
  String.ofList (render 0 value)

end Json

end Attestation
