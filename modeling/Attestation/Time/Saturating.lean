/-
Arithmetic on 64-bit words that stops at the ends of the range instead
of wrapping around. Each operation is the one on natural numbers,
clamped; the lemmas say so.
-/
namespace Attestation

namespace Saturating

/-- The largest 64-bit word, as a number. -/
def top : Nat :=
  UInt64.size - 1

/-- The word for a number, or the largest word if the number is larger
still. -/
def clamp (n : Nat) : UInt64 :=
  UInt64.ofNat (min n top)

/-- The sum, at most the largest word. -/
def add (a b : UInt64) : UInt64 :=
  clamp (a.toNat + b.toNat)

/-- The difference, at least zero. -/
def sub (a b : UInt64) : UInt64 :=
  clamp (a.toNat - b.toNat)

/-- The product, at most the largest word. -/
def mul (a b : UInt64) : UInt64 :=
  clamp (a.toNat * b.toNat)

@[simp] theorem toNat_clamp (n : Nat) : (clamp n).toNat = min n top := by
  unfold clamp top UInt64.size
  rw [UInt64.toNat_ofNat']
  exact Nat.mod_eq_of_lt (by omega)

@[simp] theorem toNat_add (a b : UInt64) :
    (add a b).toNat = min (a.toNat + b.toNat) top :=
  toNat_clamp _

@[simp] theorem toNat_sub (a b : UInt64) :
    (sub a b).toNat = a.toNat - b.toNat := by
  have := a.toNat_lt
  unfold sub
  rw [toNat_clamp]
  unfold top UInt64.size
  omega

@[simp] theorem toNat_mul (a b : UInt64) :
    (mul a b).toNat = min (a.toNat * b.toNat) top :=
  toNat_clamp _

end Saturating

end Attestation
