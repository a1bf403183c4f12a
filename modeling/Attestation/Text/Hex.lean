/-
Hexadecimal: bytes written as two digits each, and digits read back.
Writing uses small letters; reading takes both cases and, of a text
with several faults, reports an odd number of digits before any bad
character and the leftmost bad character before the others.
-/
import Attestation.Bytes.Basic

namespace Attestation

namespace Hex

/-- Why a text is not hexadecimal. -/
inductive Fault where
  /-- There is a digit without a partner. -/
  | oddLength
  /-- A byte that is no digit, and where it stands. -/
  | badCharacter (byte : UInt8) (position : Nat)
deriving DecidableEq

-- ========================================================== writing

/-- The digit for a value below sixteen. -/
def digit (value : Nat) : Char :=
  if value < 10 then Char.ofNat (48 + value)
  else Char.ofNat (87 + value)

/-- Two digits for each byte, in small letters. -/
def encode (data : Bytes) : List Char :=
  data.flatMap fun b => [digit (b.toNat / 16), digit (b.toNat % 16)]

/-- The hexadecimal text of a byte string. -/
def text (data : Bytes) : String :=
  String.ofList (encode data)

/-- The digits of a number without leading zeros. -/
def number (n : Nat) : String :=
  String.ofList (Nat.toDigits 16 n)

-- ========================================================== reading

/-- The value of a digit, of either case. -/
def value? (b : UInt8) : Option Nat :=
  if 48 ≤ b ∧ b ≤ 57 then some (b.toNat - 48)
  else if 97 ≤ b ∧ b ≤ 102 then some (b.toNat - 87)
  else if 65 ≤ b ∧ b ≤ 70 then some (b.toNat - 55)
  else none

/-- Reads digits two by two; `index` of them were read before, and
`before` holds their bytes, the last one first. -/
def decodeFrom (index : Nat) (before : Bytes) :
    Bytes → Except Fault Bytes
  | a :: b :: rest =>
    match value? a, value? b with
    | none, _ => .error (.badCharacter a index)
    | some _, none => .error (.badCharacter b (index + 1))
    | some high, some low =>
      decodeFrom (index + 2) (UInt8.ofNat (16 * high + low) :: before)
        rest
  | _ => .ok before.reverse

/-- The bytes that a hexadecimal text spells. -/
def decode (text : Bytes) : Except Fault Bytes :=
  if text.length % 2 = 0 then decodeFrom 0 [] text
  else .error .oddLength

-- ==================================================== telling faults

/-- A character between single quotes, with a backslash before a quote
or a backslash, the usual letters for the usual controls, and the
number in braces for any other character that has no picture. The
characters below U+0100 that have none are the controls and the soft
hyphen. -/
def quoted (b : UInt8) : String :=
  let c := Char.ofNat b.toNat
  let body :=
    if c = '\x00' then "\\0"
    else if c = '\t' then "\\t"
    else if c = '\n' then "\\n"
    else if c = '\r' then "\\r"
    else if c = '\x27' then "\\\x27"
    else if c = '\\' then "\\\\"
    else if b < 0x20 ∨ (0x7f ≤ b ∧ b < 0xa0) ∨ b = 0xad then
      "\\u\x7b" ++ number b.toNat ++ "\x7d"
    else
      String.singleton c
  "\x27" ++ body ++ "\x27"

def Fault.message : Fault → String
  | .oddLength => "Odd number of digits"
  | .badCharacter b position =>
    s!"Invalid character {quoted b} at position {position}"

end Hex

end Attestation
