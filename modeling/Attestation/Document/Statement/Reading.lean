/-
Reading the payload: a CBOR map of the nine fields in their order, with
nothing after the last. The key of each field is matched byte for byte,
and so is every header of which only one form can occur.

The fields before the bundle, the bundle, and the fields after it are
read by three functions, because only the bundle needs signatures
checked.
-/
import Attestation.Document.Statement.Basic
import Attestation.Text.Utf8
import Attestation.Trust.Walk
import Attestation.Trust.Acceptance

namespace Attestation

namespace Statement

/-- The header of a map of nine entries. -/
def mapHeader : Bytes :=
  [0xa9]

/-- Passes over the opening of a field. Bytes that end inside it are
missing; any others mean that something else stands there. -/
def expect (f : Field) (r : Reader) : Except Refusal Reader :=
  demand (r.pass? f.opening)
    (if r.remaining < f.opening.length ∧ r.rest.isPrefixOf f.opening then
      r.missing
    else
      .unexpectedField (.field f))

-- ====================================================== field values

/-- The module's name: a text with a one-byte length. -/
def readModuleId (r : Reader) : Except Refusal (String × Reader) := do
  let r ← expect .moduleId r
  let (length, r) ← demand (r.nat? 1) r.missing
  let (raw, r) ← demand (r.take? length) r.missing
  match Utf8.decode raw with
  | .ok text => return (String.ofList text, r)
  | .error _ => .error (.unexpectedField (.field .moduleId))

def readTimestamp (r : Reader) : Except Refusal (UInt64 × Reader) := do
  let r ← expect .timestamp r
  let (n, r) ← demand (r.nat? 8) r.missing
  return (UInt64.ofNat n, r)

def readPcrs (r : Reader) : Except Refusal (Pcrs × Reader) := do
  let (pcrs, consumed) ← Pcrs.read r.rest
  let r ← demand (r.skip? consumed) r.missing
  return (pcrs, r)

/-- The enclave's certificate: a byte string with a two-byte length. -/
def readCertificate (r : Reader) : Except Refusal (Bytes × Reader) := do
  let r ← expect .certificate r
  let (length, r) ← demand (r.nat? 2) r.missing
  demand (r.take? length) r.missing

/-- An optional byte string: null, or a byte string whose length is in
its header, in one byte or in two bytes. -/
def readOptional (f : Field) (r : Reader) :
    Except Refusal (Option Bytes × Reader) := do
  let r ← expect f r
  let (header, r) ← demand r.byte? r.missing
  if header = 0xf6 then
    return (none, r)
  else
    let (length, r) ←
      if 0x40 ≤ header ∧ header ≤ 0x57 then
        .ok (header.toNat - 0x40, r)
      else if header = 0x58 then demand (r.nat? 1) r.missing
      else if header = 0x59 then demand (r.nat? 2) r.missing
      else .error (.unexpectedField (.field f))
    let (data, r) ← demand (r.take? length) r.missing
    return (some data, r)

-- ======================================================= three parts

/-- The fields before the bundle. -/
structure Front where
  moduleId : String
  timestamp : UInt64
  pcrs : Pcrs
  certificate : Bytes

/-- The fields after the bundle. -/
structure Back where
  publicKey : Option Bytes
  userData : Option Bytes
  nonce : Option Bytes

/-- Reads the fields before the bundle. The time is judged as soon as
it is read. -/
def readFront (accepts : AgeRule) (now : UInt64) (r : Reader) :
    Except Refusal (Front × Reader) := do
  let r ← demand (r.pass? mapHeader) (.unexpectedField .mapHeader)
  let (moduleId, r) ← readModuleId r
  let r ← expect .digest r
  let (timestamp, r) ← readTimestamp r
  require (accepts timestamp now = true) (.staleTimestamp timestamp now)
  let (pcrs, r) ← readPcrs r
  let (certificate, r) ← readCertificate r
  return (⟨moduleId, timestamp, pcrs, certificate⟩, r)

/-- Walks the chain in the bundle. -/
def readBundle (w : Walk) (certificate : Bytes) (r : Reader) :
    Inquiry (PublicKey × Reader) := do
  let r ← expect .cabundle r
  let (key, consumed) ← w.chain certificate r.rest
  let r ← demand (r.skip? consumed) r.missing
  return (key, r)

/-- Reads the fields after the bundle, which must end with the
payload. -/
def readBack (r : Reader) : Except Refusal Back := do
  let (publicKey, r) ← readOptional .publicKey r
  let (userData, r) ← readOptional .userData r
  let (nonce, r) ← readOptional .nonce r
  require (r.isEmpty = true) r.missing
  return ⟨publicKey, userData, nonce⟩

/-- What the three parts state together. -/
def ofParts (front : Front) (key : PublicKey) (back : Back) :
    Statement where
  moduleId := front.moduleId
  timestamp := front.timestamp
  pcrs := front.pcrs
  enclaveKey := key
  publicKey := back.publicKey
  userData := back.userData
  nonce := back.nonce

def read (w : Walk) (accepts : AgeRule) (payload : Bytes) :
    Inquiry Statement := do
  let (front, r) ← readFront accepts w.now (Reader.ofBytes payload)
  let (key, r) ← readBundle w front.certificate r
  let back ← readBack r
  return ofParts front key back

end Statement

end Attestation
