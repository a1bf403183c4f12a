/-
Public keys and raw signatures as bytes. A key is the byte 04 and the
two coordinates of a point, each in 48 bytes; it is valid when both
coordinates are below the prime and the point is on the curve.
-/
import Attestation.Curve.P384

namespace Attestation

/-- An uncompressed public key: 04, x, y. -/
abbrev PublicKey := FixedBytes 97

/-- A raw signature: r, s, 48 bytes each. -/
abbrev RawSignature := FixedBytes 96

namespace PublicKey

/-- The first byte, which tells in which form the point is given. -/
def form (key : PublicKey) : UInt8 :=
  key.get 0

/-- The coordinate that the 48 bytes from `start` on spell, if it is
below the prime. -/
def coordinate? (key : PublicKey) (start : Nat) :
    Option P384.Coordinate :=
  let n := Bytes.bigEndian ((key.toList.drop start).take 48)
  if h : n < P384.prime then some ⟨n, h⟩ else none

/-- The point that a key names, if the key is valid. -/
def point? (key : PublicKey) : Option P384.Point :=
  if key.form = 0x04 then
    match key.coordinate? 1, key.coordinate? 49 with
    | some x, some y =>
      if P384.OnCurve x y then some (.ofAffine x y) else none
    | _, _ => none
  else
    none

/-- Whether a key names a point of the curve. -/
def isValid (key : PublicKey) : Bool :=
  key.point?.isSome

end PublicKey

end Attestation
