/-
Byte strings and the numbers they spell. A byte string is a list of
bytes; a number is spelled most significant byte first, in a fixed
width. `bigEndian` reads such a spelling and `ofNat` writes it.
-/
namespace Attestation

abbrev Bytes := List UInt8

namespace Bytes

-- ================================================ numbers in bytes

/-- The number that the bytes spell, most significant byte first. The
empty string spells zero. -/
def bigEndian (data : Bytes) : Nat :=
  data.foldl (fun n b => 256 * n + b.toNat) 0

/-- The last `width` base-256 digits of `n`, most significant first. -/
def ofNat : (width n : Nat) → Bytes
  | 0, _ => []
  | width + 1, n => UInt8.ofNat (n >>> (8 * width)) :: ofNat width n

/-- The bytes of a text that holds ASCII alone. -/
def ascii (text : String) : Bytes :=
  text.toList.map fun c => UInt8.ofNat c.toNat

@[simp] theorem length_ofNat (width n : Nat) :
    (ofNat width n).length = width := by
  induction width with
  | zero => rfl
  | succ width ih => simp [ofNat, ih]

end Bytes

end Attestation
