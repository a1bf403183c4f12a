/-
ECDSA over P-384 on a digest that is already computed. A signature is a
pair (r, s) of scalars other than zero, in one of two encodings: raw
(48 bytes each) and DER. Both encodings end in the one check `holds`.
-/
import Attestation.Bytes.DerLength
import Attestation.Hash.Sha384
import Attestation.Signature.Key

namespace Attestation

namespace Ecdsa

open P384

/-- The two numbers of a signature. -/
structure Pair where
  r : Nat
  s : Nat
deriving DecidableEq

/-- Both numbers lie between zero and the order, both excluded. -/
def Pair.InRange (pair : Pair) : Prop :=
  (0 < pair.r ∧ pair.r < order) ∧ (0 < pair.s ∧ pair.s < order)

instance (pair : Pair) : Decidable pair.InRange :=
  inferInstanceAs (Decidable (_ ∧ _))

/-- Whether a signature in range belongs to a digest and a key. The
digest, as a number z, and r are divided by s; the first coordinate of
z/s times the generator plus r/s times the key must be r modulo the
order. -/
def holds (key : Point) (digest : Digest384) (pair : Pair) : Bool :=
  let r := Fin.ofNat order pair.r
  let w := inverse (Fin.ofNat order pair.s)
  let z := Fin.ofNat order digest.toNat
  match (Point.combine (z * w) .generator (r * w) key).affineX? with
  | none => false
  | some x => x.val % order == pair.r

/-- Whether a pair of numbers is a signature of the digest by the
key. -/
def accepts (key : PublicKey) (digest : Digest384) (pair : Pair) :
    Bool :=
  match key.point? with
  | none => false
  | some point => decide pair.InRange && holds point digest pair

-- =================================================== raw signatures

/-- The pair in a raw signature. -/
def Pair.ofRaw (signature : RawSignature) : Pair :=
  ⟨Bytes.bigEndian (signature.toList.take 48),
   Bytes.bigEndian (signature.toList.drop 48)⟩

def verifyRaw (key : PublicKey) (digest : Digest384)
    (signature : RawSignature) : Bool :=
  accepts key digest (.ofRaw signature)

-- =================================================== DER signatures

/-- Whether bytes are the shortest DER content of a number that is not
negative: not empty, no sign bit, and a leading zero only where the
next byte would otherwise carry the sign. -/
def isMinimal : Bytes → Bool
  | [] => false
  | [b] => b < 0x80
  | b :: c :: _ => b < 0x80 && (b != 0 || 0x80 ≤ c)

/-- A DER INTEGER that is not negative, and the reader after it. -/
def integer? (reader : Reader) : Option (Nat × Reader) := do
  let reader ← reader.pass? [0x02]
  let (length, reader) ← reader.shortLength?
  let (content, reader) ← reader.take? length
  if isMinimal content then some (Bytes.bigEndian content, reader)
  else none

/-- The pair in a DER signature: one SEQUENCE of two INTEGERs, with
nothing left over inside it or after it. A pair in range takes fewer
than 128 bytes, so longer forms of a length need not be read. -/
def Pair.ofDer? (signature : Bytes) : Option Pair := do
  let reader ← (Reader.ofBytes signature).pass? [0x30]
  let (length, reader) ← reader.shortLength?
  if reader.remaining = length then
    let (r, reader) ← integer? reader
    let (s, reader) ← integer? reader
    if reader.isEmpty then some ⟨r, s⟩ else none
  else
    none

def verifyDer (key : PublicKey) (digest : Digest384)
    (signature : Bytes) : Bool :=
  match Pair.ofDer? signature with
  | none => false
  | some pair => accepts key digest pair

end Ecdsa

end Attestation
