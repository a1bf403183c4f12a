/-
Numbers of a fixed width, the largest digit first, where a digit is a
byte. Reading and writing them are inverse to each other: reading what
was written gives the number, for every number that the width holds
(`bigEndian_ofNat`), and writing what was read gives the bytes
(`ofNat_bigEndian`).

Both go by induction on the width. Reading is a fold from the front, so
the leading digit is the first to be added and every later one
multiplies it by 256; the fold is generalized over what it begins with
(`foldl_digits`), and `bigEndian_cons` takes the leading digit off.
Writing peels digits off by shifts instead, and `shiftRight_bytes` says
that this is division.

A number that is too large for the width loses its leading digits. The
two `_mod` lemmas say so without a condition, and what is used elsewhere
are the two exact ones.
-/
import Attestation.Bytes.Basic
import Mathlib.Algebra.Group.Nat.Defs

namespace Attestation

namespace Bytes

@[simp] theorem bigEndian_nil : bigEndian [] = 0 :=
  rfl

/-- A fold that starts at `n` counts `n` once for every number that the
bytes after it can spell. -/
private theorem foldl_digits (data : Bytes) (n : Nat) :
    data.foldl (fun n b => 256 * n + b.toNat) n
      = n * 256 ^ data.length + bigEndian data := by
  induction data generalizing n with
  | nil => simp
  | cons b rest ih =>
    have hstart : bigEndian (b :: rest)
        = b.toNat * 256 ^ rest.length + bigEndian rest := by
      show rest.foldl _ (256 * 0 + b.toNat) = _
      rw [ih, Nat.mul_zero, Nat.zero_add]
    rw [List.foldl_cons, ih, hstart, List.length_cons, Nat.pow_succ,
      Nat.add_mul, Nat.mul_comm 256 n, Nat.mul_assoc, Nat.add_assoc,
      Nat.mul_comm 256]

/-- The leading digit counts by the place that it stands at. -/
theorem bigEndian_cons (b : UInt8) (rest : Bytes) :
    bigEndian (b :: rest)
      = b.toNat * 256 ^ rest.length + bigEndian rest := by
  show rest.foldl _ (256 * 0 + b.toNat) = _
  rw [foldl_digits, Nat.mul_zero, Nat.zero_add]

/-- So many digits spell no number beyond the width. -/
theorem bigEndian_lt (data : Bytes) :
    bigEndian data < 256 ^ data.length := by
  induction data with
  | nil => exact Nat.one_pos
  | cons b rest ih =>
    have hb : b.toNat + 1 ≤ 256 := b.toNat_lt
    have hmul := Nat.mul_le_mul_right (256 ^ rest.length) hb
    rw [bigEndian_cons, List.length_cons, Nat.pow_succ,
      Nat.mul_comm (256 ^ rest.length)]
    rw [Nat.add_mul, Nat.one_mul] at hmul
    omega

/-- Moving a number right by whole bytes drops its last base-256
digits. -/
theorem shiftRight_bytes (n width : Nat) :
    n >>> (8 * width) = n / 256 ^ width := by
  rw [Nat.shiftRight_eq_div_pow, Nat.pow_mul]

/-- Reading undoes writing, up to the digits that the width cannot
hold. -/
theorem bigEndian_ofNat_mod (width n : Nat) :
    bigEndian (ofNat width n) = n % 256 ^ width := by
  induction width with
  | zero => simp [ofNat, Nat.mod_one]
  | succ width ih =>
    have hbyte : (UInt8.ofNat (n / 256 ^ width)).toNat
        = n / 256 ^ width % 256 := UInt8.toNat_ofNat'
    have hsplit : n % 256 ^ (width + 1)
        = n % 256 ^ width + 256 ^ width * (n / 256 ^ width % 256) :=
      Nat.mod_pow_succ
    rw [ofNat, bigEndian_cons, ih, length_ofNat, shiftRight_bytes, hbyte,
      hsplit, Nat.mul_comm, Nat.add_comm]

/-- A number that the width holds is read back. -/
theorem bigEndian_ofNat {width n : Nat} (h : n < 256 ^ width) :
    bigEndian (ofNat width n) = n := by
  rw [bigEndian_ofNat_mod, Nat.mod_eq_of_lt h]

/-- A spelling depends only on the digits that it shows. -/
theorem ofNat_mod (width n : Nat) :
    ofNat width (n % 256 ^ width) = ofNat width n := by
  suffices ∀ m, width ≤ m → ofNat width (n % 256 ^ m) = ofNat width n from
    this width (Nat.le_refl width)
  induction width with
  | zero => intro m _; rfl
  | succ width ih =>
    intro m hm
    have hdiv : 256 ^ m = 256 ^ width * 256 ^ (m - width) := by
      rw [← Nat.pow_add]
      congr 1
      omega
    have hbyte : 256 ^ 1 ∣ 256 ^ (m - width) :=
      Nat.pow_dvd_pow 256 (by omega)
    rw [ofNat, ofNat, ih m (by omega), shiftRight_bytes,
      shiftRight_bytes, hdiv, Nat.mod_mul_right_div_self]
    congr 1
    apply UInt8.toNat_inj.1
    rw [UInt8.toNat_ofNat', UInt8.toNat_ofNat']
    exact Nat.mod_mod_of_dvd _ hbyte

/-- Writing undoes reading. -/
theorem ofNat_bigEndian (data : Bytes) :
    ofNat data.length (bigEndian data) = data := by
  induction data with
  | nil => rfl
  | cons b rest ih =>
    have hlt := bigEndian_lt rest
    have hpos : 0 < 256 ^ rest.length := Nat.pos_of_ne_zero (by omega)
    have hhead : (b.toNat * 256 ^ rest.length + bigEndian rest)
        / 256 ^ rest.length = b.toNat := by
      rw [Nat.mul_comm, Nat.mul_add_div hpos, Nat.div_eq_of_lt hlt,
        Nat.add_zero]
    have htail : (b.toNat * 256 ^ rest.length + bigEndian rest)
        % 256 ^ rest.length = bigEndian rest := by
      rw [Nat.mul_comm, Nat.mul_add_mod, Nat.mod_eq_of_lt hlt]
    rw [List.length_cons, ofNat, bigEndian_cons, shiftRight_bytes, hhead,
      UInt8.ofNat_toNat, ← ofNat_mod, htail, ih]

/-- Digits are written back, in the width that they have. -/
theorem ofNat_bigEndian_of_length {data : Bytes} {width : Nat}
    (h : data.length = width) : ofNat width (bigEndian data) = data := by
  rw [← h]
  exact ofNat_bigEndian data

end Bytes

end Attestation
