/-
UTF-8: texts written as bytes, and bytes read as texts. Reading accepts
only well-formed sequences (no overlong form, no surrogate, nothing
above U+10FFFF) and otherwise says where the first bad sequence starts
and how many of its bytes could still have begun a character.
-/
import Attestation.Bytes.Basic

namespace Attestation

namespace Utf8

/-- Why bytes are not UTF-8. -/
inductive Fault where
  /-- The `length` bytes from `index` begin no character. -/
  | invalid (length index : Nat)
  /-- The bytes end inside the character that starts at `index`. -/
  | incomplete (index : Nat)
deriving DecidableEq

def Fault.message : Fault → String
  | .invalid length index =>
    s!"invalid utf-8 sequence of {length} bytes from index {index}"
  | .incomplete index =>
    s!"incomplete utf-8 byte sequence from index {index}"

-- ========================================================== writing

def encode (text : List Char) : Bytes :=
  text.flatMap String.utf8EncodeChar

-- ========================================================== reading

/-- The bytes that may stand second in a character of two or more
bytes, as a closed range, and how many bytes the character has, by its
first byte. The range is narrower after the four first bytes that could
begin an overlong form, a surrogate or a number above U+10FFFF. -/
def lead? (b : UInt8) : Option (Nat × UInt8 × UInt8) :=
  if 0xc2 ≤ b ∧ b ≤ 0xdf then some (2, 0x80, 0xbf)
  else if b = 0xe0 then some (3, 0xa0, 0xbf)
  else if b = 0xed then some (3, 0x80, 0x9f)
  else if 0xe1 ≤ b ∧ b ≤ 0xef then some (3, 0x80, 0xbf)
  else if b = 0xf0 then some (4, 0x90, 0xbf)
  else if b = 0xf4 then some (4, 0x80, 0x8f)
  else if 0xf1 ≤ b ∧ b ≤ 0xf3 then some (4, 0x80, 0xbf)
  else none

/-- Reads the bytes of a character after its second one: `left` of them
are wanted, `seen` bytes came before, and `code` is what those spell.
The answer is the character's number and the bytes after it, or, as an
error, how many bytes were good before a bad one (`none` if the input
ended instead). -/
def continuation (left seen code : Nat) :
    Bytes → Except (Option Nat) (Nat × Bytes)
  | rest =>
    match left, rest with
    | 0, rest => .ok (code, rest)
    | _ + 1, [] => .error none
    | left + 1, b :: rest =>
      if 0x80 ≤ b ∧ b ≤ 0xbf then
        continuation left (seen + 1) (64 * code + b.toNat % 64) rest
      else
        .error (some seen)

/-- The first character of `b :: rest` and the bytes after it, or, as
an error, how many bytes are bad (`none` if the input ends inside the
character). -/
def character (b : UInt8) (rest : Bytes) :
    Except (Option Nat) (Char × Bytes) :=
  if b < 0x80 then
    .ok (Char.ofNat b.toNat, rest)
  else
    match lead? b with
    | none => .error (some 1)
    | some (size, low, high) =>
      match rest with
      | [] => .error none
      | c :: rest =>
        if low ≤ c ∧ c ≤ high then
          let code := 64 * (b.toNat % (0x80 >>> size)) + c.toNat % 64
          match continuation (size - 2) 2 code rest with
          | .error e => .error e
          | .ok (code, rest) => .ok (Char.ofNat code, rest)
        else
          .error (some 1)

theorem continuation_shorter {left seen code n : Nat}
    {rest after : Bytes}
    (h : continuation left seen code rest = .ok (n, after)) :
    after.length ≤ rest.length := by
  induction left generalizing seen code rest with
  | zero =>
    unfold continuation at h
    cases h
    exact Nat.le_refl _
  | succ left ih =>
    unfold continuation at h
    cases rest with
    | nil => cases h
    | cons b rest =>
      simp only at h
      split at h
      · have := ih h
        simp only [List.length_cons]
        omega
      · cases h

theorem character_shorter {b : UInt8} {rest after : Bytes} {c : Char}
    (h : character b rest = .ok (c, after)) :
    after.length ≤ rest.length := by
  unfold character at h
  split at h
  · cases h
    exact Nat.le_refl _
  · split at h
    · cases h
    · split at h
      · cases h
      · split at h
        · simp only at h
          split at h
          · cases h
          · rename_i hc
            cases h
            have := continuation_shorter hc
            simp only [List.length_cons]
            omega
        · cases h

/-- Reads characters up to the end of the input; `index` bytes were
read before, and `before` holds their characters, the last one first. -/
def decodeFrom (index : Nat) (before : List Char) (data : Bytes) :
    Except Fault (List Char) :=
  match data with
  | [] => .ok before.reverse
  | b :: rest =>
    match _h : character b rest with
    | .error none => .error (.incomplete index)
    | .error (some length) => .error (.invalid length index)
    | .ok (c, after) =>
      decodeFrom (index + c.utf8Size) (c :: before) after
termination_by data.length
decreasing_by
  have := character_shorter _h
  simp only [List.length_cons]
  omega

def decode (data : Bytes) : Except Fault (List Char) :=
  decodeFrom 0 [] data

end Utf8

end Attestation
