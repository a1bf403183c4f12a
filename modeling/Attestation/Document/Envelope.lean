/-
The envelope of an attestation document: an untagged COSE_Sign1 array
whose every byte but the payload, its length and the signature is
fixed.

  84                array of 4
  44 A1 01 38 22    protected header: a byte string, {1: -35}
  A0                unprotected header: empty
  59 LL LL ..       payload: a byte string with a two-byte length
  58 60 ..          signature: 96 bytes, r and s

What is signed is not the document but a second array around the same
payload. It is put together from the payload's own bytes and its own
length header, so that nothing is encoded anew.
-/
import Attestation.Signature.Inquiry

namespace Attestation

/-- The variable parts of a document. -/
structure Envelope where
  /-- The payload's length as the document writes it. -/
  lengthHeader : FixedBytes 2
  payload : Bytes
  signature : RawSignature
deriving DecidableEq

namespace Envelope

/-- The bytes before the payload's length. -/
def opening : Bytes :=
  [0x84, 0x44, 0xa1, 0x01, 0x38, 0x22, 0xa0, 0x59]

/-- The bytes between payload and signature. -/
def signatureHeader : Bytes :=
  [0x58, 0x60]

def read (document : Bytes) : Except Refusal Envelope := do
  let r ← demand ((Reader.ofBytes document).pass? opening)
    (.malformedEnvelope .header)
  let (lengthHeader, r) ← demand (r.fixed? 2)
    (.malformedEnvelope .payloadLength)
  let (payload, r) ← demand (r.take? lengthHeader.toNat)
    (.malformedEnvelope .payloadCut)
  let r ← demand (r.pass? signatureHeader)
    (.malformedEnvelope .signatureHeader)
  let (signature, r) ← demand (r.fixed? 96)
    (.malformedEnvelope .signatureCut)
  require (r.isEmpty = true) (.malformedEnvelope .trailingBytes)
  return ⟨lengthHeader, payload, signature⟩

/-- The document that a payload of fewer than 65536 bytes and a
signature make up. -/
def assemble (payload : Bytes) (signature : RawSignature) : Bytes :=
  opening ++ Bytes.ofNat 2 payload.length ++ payload
    ++ signatureHeader ++ signature.toList

-- ======================================================= the signing

/-- The signed array up to the payload's length: the text Signature1,
the protected header, an empty byte string, and the header of a byte
string with a two-byte length. -/
def signedOpening : Bytes :=
  [0x84, 0x6a] ++ Bytes.ascii "Signature1"
    ++ [0x44, 0xa1, 0x01, 0x38, 0x22, 0x40, 0x59]

/-- The bytes that are signed. -/
def signedBytes (e : Envelope) : Bytes :=
  signedOpening ++ e.lengthHeader.toList ++ e.payload

/-- The digest of the signed bytes, computed without putting them
together. -/
def signedDigest (e : Envelope) : Digest384 :=
  sha384Pieces [signedOpening, e.lengthHeader.toList, e.payload]

/-- Asks whether the signature is one by the key. -/
def checkSigned (e : Envelope) (key : PublicKey) : Inquiry Unit := do
  let answer ← Inquiry.consult (.raw key e.signedDigest e.signature)
  require (answer = true) Refusal.invalidSignature

end Envelope

end Attestation
