/-
Whole numbers in decimal, read with an upper limit. One leading plus
sign is allowed, and nothing else but ASCII digits; leading zeros are
allowed. The text is read from the left and the first fault found is
the one reported, so a digit too many hides a letter after it.
-/
namespace Attestation

namespace Decimal

/-- Why a text is not a number within the limit. -/
inductive Fault where
  | empty
  | badDigit
  | tooLarge
deriving DecidableEq

def Fault.message : Fault → String
  | .empty => "cannot parse integer from empty string"
  | .badDigit => "invalid digit found in string"
  | .tooLarge => "number too large to fit in target type"

/-- The value of an ASCII digit. -/
def digit? (c : Char) : Option Nat :=
  if '0' ≤ c ∧ c ≤ '9' then some (c.toNat - 48) else none

/-- Reads digits after those that spelled `n`. -/
def parseFrom (limit n : Nat) : List Char → Except Fault Nat
  | [] => .ok n
  | c :: rest =>
    match digit? c with
    | none => .error .badDigit
    | some d =>
      if 10 * n + d ≤ limit then parseFrom limit (10 * n + d) rest
      else .error .tooLarge

/-- The number that a text spells, if it is at most `limit`. A lone
sign is a sign without a digit. -/
def parse (limit : Nat) : List Char → Except Fault Nat
  | [] => .error .empty
  | ['+'] => .error .badDigit
  | '+' :: rest => parseFrom limit 0 rest
  | text => parseFrom limit 0 text

/-- The largest number that 64 bits hold. -/
def maxWord : Nat :=
  UInt64.size - 1

/-- A number of at most 64 bits. -/
def parseWord (text : List Char) : Except Fault UInt64 :=
  (parse maxWord text).map UInt64.ofNat

end Decimal

end Attestation
