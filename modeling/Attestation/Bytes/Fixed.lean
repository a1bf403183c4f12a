/-
Byte strings whose length is part of their type: keys, digests,
signatures and register values. The length is a proof field, so a
function that asks for 48 bytes cannot be handed 47, and indexing with
a `Fin` needs no bounds check.
-/
import Attestation.Bytes.Basic

namespace Attestation

/-- A byte string of exactly `n` bytes. -/
structure FixedBytes (n : Nat) where
  toList : Bytes
  length_eq : toList.length = n
deriving DecidableEq

namespace FixedBytes

variable {n : Nat}

@[ext] theorem ext {a b : FixedBytes n} (h : a.toList = b.toList) :
    a = b := by
  cases a
  cases b
  simp_all

@[simp] theorem length_toList (a : FixedBytes n) : a.toList.length = n :=
  a.length_eq

/-- The bytes as a fixed-size value, if there are exactly `n`. -/
def ofList? (n : Nat) (data : Bytes) : Option (FixedBytes n) :=
  if h : data.length = n then some ⟨data, h⟩ else none

def get (a : FixedBytes n) (i : Fin n) : UInt8 :=
  a.toList.get (i.cast a.length_eq.symm)

/-- The `n` bytes of `data` that start at `start`. -/
def window (data : Bytes) (start n : Nat)
    (h : start + n ≤ data.length) : FixedBytes n where
  toList := (data.drop start).take n
  length_eq := by
    simp only [List.length_take, List.length_drop]
    omega

/-- The number that the bytes spell, most significant byte first. -/
def toNat (a : FixedBytes n) : Nat :=
  Bytes.bigEndian a.toList

/-- A number written in `n` bytes, most significant byte first. -/
def ofNat (n value : Nat) : FixedBytes n :=
  ⟨Bytes.ofNat n value, Bytes.length_ofNat n value⟩

theorem ofList?_eq_some_iff {data : Bytes} {a : FixedBytes n} :
    ofList? n data = some a ↔ data = a.toList := by
  unfold ofList?
  split
  · rename_i h
    constructor
    · intro e
      cases e
      rfl
    · intro e
      subst e
      rfl
  · rename_i h
    constructor
    · intro e
      cases e
    · intro e
      subst e
      exact absurd a.length_eq h

theorem ofList?_of_length {data : Bytes} (h : data.length = n) :
    ofList? n data = some ⟨data, h⟩ :=
  dif_pos h

@[simp] theorem ofList?_toList (a : FixedBytes n) :
    ofList? n a.toList = some a :=
  ofList?_eq_some_iff.2 rfl

end FixedBytes

end Attestation
