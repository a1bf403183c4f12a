/-
The curve P-384: the points (x, y) with y² = x³ - 3x + b over the
integers modulo a prime, and the point at infinity.

Points are computed with in Jacobian coordinates, where (x, y, z)
stands for (x/z², y/z³) and z = 0 for the point at infinity, so that
only the last step needs a division.
-/
import Attestation.Bytes.Fixed

namespace Attestation

namespace P384

-- ====================================================== the numbers

/-- The number of coordinates, a prime. -/
def prime : Nat :=
  0xfffffffffffffffffffffffffffffffffffffffffffffffffffffffffffffffeffffffff0000000000000000ffffffff

/-- The number of points, a prime. -/
def order : Nat :=
  0xffffffffffffffffffffffffffffffffffffffffffffffffc7634d81f4372ddf581a0db248b0a77aecec196accc52973

/-- A number other than zero, as numerals of `Fin` ask for it. -/
abbrev Modulus (m : Nat) : Prop :=
  @NeZero Nat Zero.ofOfNat0 m

instance : Modulus prime := ⟨by decide⟩

instance : Modulus order := ⟨by decide⟩

abbrev Coordinate := Fin prime

/-- A multiple of a point is given by a number modulo the order. -/
abbrev Scalar := Fin order

/-- The constant term of the equation. -/
def constantTerm : Coordinate :=
  0xb3312fa7e23ee7e4988e056be3f82d19181d9c6efe8141120314088f5013875ac656398d8a2ed19d2a85c8edd3ec2aef

/-- A power, by repeated squaring. -/
def power {m : Nat} [Modulus m] (x : Fin m) (n : Nat) : Fin m :=
  if n = 0 then 1
  else
    let y := power (x * x) (n / 2)
    if n % 2 = 0 then y else x * y
termination_by n

/-- The inverse modulo a prime `m`, which is the power `m - 2`. -/
def inverse {m : Nat} [Modulus m] (x : Fin m) : Fin m :=
  power x (m - 2)

-- ======================================================= the points

/-- Whether two coordinates satisfy the equation. -/
def OnCurve (x y : Coordinate) : Prop :=
  y * y = x * x * x - 3 * x + constantTerm

instance (x y : Coordinate) : Decidable (OnCurve x y) :=
  inferInstanceAs (Decidable (_ = _))

structure Point where
  x : Coordinate
  y : Coordinate
  z : Coordinate
deriving DecidableEq

namespace Point

def infinity : Point :=
  ⟨1, 1, 0⟩

/-- The point with the given coordinates. -/
def ofAffine (x y : Coordinate) : Point :=
  ⟨x, y, 1⟩

/-- The point whose multiples all others are. -/
def generator : Point :=
  ofAffine
    0xaa87ca22be8b05378eb1c71ef320ad746e1d3b628ba79b9859f741e082542a385502f25dbf55296c3a545e3872760ab7
    0x3617de4a96262c6f5d9e98bf9292dc29f8f41dbd289a147ce9da3113b5f0b8c00a60b1ce1d7e819d7a431d7c90ea0e5f

/-- The first coordinate, except of the point at infinity. -/
def affineX? (p : Point) : Option Coordinate :=
  if p.z = 0 then none
  else
    let w := inverse p.z
    some (p.x * (w * w))

def double (p : Point) : Point :=
  if p.z = 0 ∨ p.y = 0 then infinity
  else
    let zz := p.z * p.z
    let yy := p.y * p.y
    let s := p.x * yy
    let slope := 3 * ((p.x - zz) * (p.x + zz))
    let x := slope * slope - 8 * s
    { x := x
      y := slope * (4 * s - x) - 8 * (yy * yy)
      z := 2 * (p.y * p.z) }

def add (p q : Point) : Point :=
  if p.z = 0 then q
  else if q.z = 0 then p
  else
    let pzz := p.z * p.z
    let qzz := q.z * q.z
    let u := p.x * qzz
    let v := p.y * (q.z * qzz)
    let du := q.x * pzz - u
    let dv := q.y * (p.z * pzz) - v
    if du = 0 then
      if dv = 0 then double p else infinity
    else
      let dd := du * du
      let ddd := dd * du
      let t := u * dd
      let x := dv * dv - ddd - 2 * t
      { x := x
        y := dv * (t - x) - v * ddd
        z := p.z * q.z * du }

/-- Adds `m` times `p` and `n` times `q`, where `sum` is `p + q` and
`total` is what the bits from `count` on gave; the bits are taken from
the highest down. -/
def combineFrom (p q sum : Point) (m n : Nat) :
    (count : Nat) → (total : Point) → Point
  | 0, total => total
  | i + 1, total =>
    let twice := total.double
    let next :=
      match m.testBit i, n.testBit i with
      | false, false => twice
      | true, false => twice.add p
      | false, true => twice.add q
      | true, true => twice.add sum
    combineFrom p q sum m n i next

/-- `m` times `p` plus `n` times `q`. -/
def combine (m : Scalar) (p : Point) (n : Scalar) (q : Point) : Point :=
  combineFrom p q (p.add q) m.val n.val 384 infinity

end Point

end P384

end Attestation
