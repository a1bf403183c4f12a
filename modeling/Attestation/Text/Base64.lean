/-
Base64 with the standard alphabet and padding. Reading accepts just
what writing produces: the last group must be padded to four symbols,
and the bits of it that belong to no byte must be zero.

A text is read in groups of four symbols. All groups but the last hold
alphabet symbols alone; the last one (shorter than four symbols if the
text's length is no multiple of four) may end in padding.
-/
import Attestation.Bytes.Basic

namespace Attestation

namespace Base64

/-- Why a text is not Base64. -/
inductive Fault where
  /-- A byte that may not stand where it does. -/
  | badSymbol (byte : UInt8) (offset : Nat)
  /-- The last symbol carries bits that belong to no byte. -/
  | badLastSymbol (byte : UInt8) (offset : Nat)
  /-- The last group is too short to spell a byte. -/
  | badLength (length : Nat)
  /-- The last group is not filled up to four symbols. -/
  | badPadding
deriving DecidableEq

def Fault.message : Fault → String
  | .badSymbol b offset => s!"Invalid symbol {b.toNat}, offset {offset}."
  | .badLastSymbol b offset =>
    s!"Invalid last symbol {b.toNat}, offset {offset}."
  | .badLength length => s!"Invalid input length: {length}"
  | .badPadding => "Invalid padding"

def pad : UInt8 := 61

-- ========================================================== writing

/-- The symbol for a value below sixty-four. -/
def symbol (value : Nat) : UInt8 :=
  if value < 26 then UInt8.ofNat (65 + value)
  else if value < 52 then UInt8.ofNat (71 + value)
  else if value < 62 then UInt8.ofNat (value - 4)
  else if value = 62 then 43
  else 47

/-- The symbols for a byte string, in groups of four. -/
def encode : Bytes → Bytes
  | a :: b :: c :: rest =>
    let n := Bytes.bigEndian [a, b, c]
    symbol (n >>> 18) :: symbol (n >>> 12 % 64)
      :: symbol (n >>> 6 % 64) :: symbol (n % 64) :: encode rest
  | [a, b] =>
    let n := Bytes.bigEndian [a, b]
    [symbol (n >>> 10), symbol (n >>> 4 % 64), symbol (n % 16 * 4), pad]
  | [a] =>
    [symbol (a.toNat / 4), symbol (a.toNat % 4 * 16), pad, pad]
  | [] => []

-- ========================================================== reading

/-- The value of an alphabet symbol. -/
def value? (b : UInt8) : Option Nat :=
  if 65 ≤ b ∧ b ≤ 90 then some (b.toNat - 65)
  else if 97 ≤ b ∧ b ≤ 122 then some (b.toNat - 71)
  else if 48 ≤ b ∧ b ≤ 57 then some (b.toNat + 4)
  else if b = 43 then some 62
  else if b = 47 then some 63
  else none

/-- The values of symbols that must all be of the alphabet. -/
def values (offset : Nat) : Bytes → Except Fault (List Nat)
  | [] => .ok []
  | b :: rest =>
    match value? b with
    | none => .error (.badSymbol b offset)
    | some v =>
      match values (offset + 1) rest with
      | .error e => .error e
      | .ok vs => .ok (v :: vs)

/-- The number that values spell in base sixty-four. -/
def spelled (values : List Nat) : Nat :=
  values.foldl (fun n v => 64 * n + v) 0

/-- Reads the full groups that stand before the last one; `before`
holds the bytes read so far, the last one first. -/
def decodeGroups (offset : Nat) (before : Bytes) :
    Bytes → Except Fault Bytes
  | a :: b :: c :: d :: rest =>
    match values offset [a, b, c, d] with
    | .error e => .error e
    | .ok vs =>
      decodeGroups (offset + 4)
        ((Bytes.ofNat 3 (spelled vs)).reverse ++ before) rest
  | _ => .ok before.reverse

/-- The alphabet symbols of the last group before any padding, each
with its value. `index` symbols were read before, `start` is the offset
of the group. Padding may not be the first or second symbol, and after
it may come nothing but padding. -/
def lastSymbols (start index : Nat) :
    Bytes → Except Fault (List (UInt8 × Nat))
  | [] => .ok []
  | b :: rest =>
    if b = pad then
      if index < 2 then .error (.badSymbol b (start + index))
      else if rest.all (· == pad) then .ok []
      else .error (.badSymbol pad (start + index))
    else
      match value? b with
      | none => .error (.badSymbol b (start + index))
      | some v =>
        match lastSymbols start (index + 1) rest with
        | .error e => .error e
        | .ok symbols => .ok ((b, v) :: symbols)

/-- Reads the last group of a text that is not empty. -/
def decodeLast (start : Nat) (group : Bytes) : Except Fault Bytes :=
  match lastSymbols start 0 group with
  | .error e => .error e
  | .ok symbols =>
    let count := symbols.length
    let n := spelled (symbols.map Prod.snd)
    match symbols.getLast? with
    | none => .error (.badLength start)
    | some (last, _) =>
      if count < 2 then .error (.badLength (start + count))
      else if group.length ≠ 4 then .error .badPadding
      else if n % (1 <<< (6 * count % 8)) ≠ 0 then
        .error (.badLastSymbol last (start + count - 1))
      else .ok (Bytes.ofNat (count - 1) (n >>> (6 * count % 8)))

/-- The bytes that a Base64 text spells. A last symbol that would be
alone in its group is looked at before everything else. -/
def decode (text : Bytes) : Except Fault Bytes :=
  match text.getLast? with
  | none => .ok []
  | some last =>
    let odd := text.length % 4
    let start := text.length - (if odd = 0 then 4 else odd)
    if odd = 1 ∧ last ≠ pad ∧ value? last = none then
      .error (.badSymbol last (text.length - 1))
    else
      match decodeGroups 0 [] (text.take start) with
      | .error e => .error e
      | .ok front =>
        match decodeLast start (text.drop start) with
        | .error e => .error e
        | .ok back => .ok (front ++ back)

end Base64

end Attestation
