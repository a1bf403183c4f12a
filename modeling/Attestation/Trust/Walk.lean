/-
Walking a chain of certificates from the trusted root towards the
enclave. The bundle is a CBOR array of at most fifteen byte strings,
the root first. Each certificate after the root must name the one
before it as its issuer and be valid now; in full mode it must also be
signed by the key of the one before it, the first entry must be the
root itself, and the enclave's own certificate ends the chain.

An entry is read from the array only when the ones before it were found
good, so the first fault along the chain is the one reported.
-/
import Attestation.Certificate.Reading
import Attestation.Signature.Inquiry
import Attestation.Trust.Setup

namespace Attestation

/-- What a walk depends on besides the bytes it reads. -/
structure Walk where
  anchor : Anchor
  mode : TrustMode
  fuzzPercent : UInt64
  /-- In seconds since 1970. -/
  now : UInt64
deriving DecidableEq

/-- Who the next certificate must have been issued by: the digest of a
common name, and a key. -/
structure Issuer where
  identity : Digest256
  key : PublicKey
deriving DecidableEq

/-- A certificate's subject in the role of an issuer. -/
def Certificate.subject (c : Certificate) : Issuer :=
  ⟨c.subjectHash, c.publicKey⟩

/-- The trusted root in the role of an issuer. -/
def Anchor.issuer (anchor : Anchor) : Issuer :=
  ⟨anchor.identity, anchor.publicKey⟩

namespace Bundle

/-- The number of entries, from the header of the array. -/
def count (r : Reader) : Except Refusal (Nat × Reader) := do
  let (header, r) ← demand r.byte? (.malformedBundle .missing)
  require (0x80 ≤ header ∧ header ≤ 0x8f) (.malformedBundle .notArray)
  return (header.toNat - 0x80, r)

/-- The next entry, a byte string with a two-byte length, and the
reader after it. -/
def entry (r : Reader) : Except Refusal (Bytes × Reader) := do
  let (header, r) ← demand r.byte? r.missing
  require (header = 0x59) (.malformedBundle .notByteString)
  let (length, r) ← demand (r.nat? 2) r.missing
  demand (r.take? length) r.missing

end Bundle

namespace Walk

/-- In full mode, asks whether an issuer signed a certificate. -/
def checkIssued (w : Walk) (index : Nat) (issuer : Issuer)
    (c : Certificate) : Inquiry Unit :=
  match w.mode with
  | .identityLinkage => .done ()
  | .full => do
    let answer ←
      Inquiry.consult (.der issuer.key (sha384 c.signed) c.signature)
    require (answer = true) (Refusal.chainBroken index)

/-- Checks that a certificate follows from an issuer, and gives its
subject as the next issuer. -/
def link (w : Walk) (index : Nat) (issuer : Issuer) (der : Bytes) :
    Inquiry Issuer := do
  let c ← Certificate.read der
  require (c.issuerHash = issuer.identity) (Refusal.chainBroken index)
  c.validity.check w.now w.fuzzPercent
  w.checkIssued index issuer c
  return c.subject

/-- In full mode, checks that the first entry is the root. -/
def confirmRoot (w : Walk) (der : Bytes) : Except Refusal Unit :=
  match w.mode with
  | .identityLinkage => .ok ()
  | .full => do
    let c ← Certificate.read der
    require (c.subject.key = w.anchor.publicKey
      ∧ c.subject.identity = w.anchor.identity) (.chainBroken 0)

/-- Takes one entry of the bundle into the chain: the first is the
root, which stands for itself, and every other one is linked. -/
def extend (w : Walk) (index : Nat) (issuer : Issuer) (der : Bytes) :
    Inquiry Issuer :=
  match index with
  | 0 => do
    w.confirmRoot der
    return issuer
  | index + 1 => w.link (index + 1) issuer der

/-- Reads the entries that are left, from an index on, and takes each
into the chain. -/
def entries (w : Walk) (index : Nat) (issuer : Issuer) (r : Reader) :
    (left : Nat) → Inquiry (Issuer × Reader)
  | 0 => return (issuer, r)
  | left + 1 => do
    let (der, r) ← Bundle.entry r
    let issuer ← w.extend index issuer der
    w.entries (index + 1) issuer r left

/-- In full mode, links the enclave's own certificate after the last
entry. -/
def leaf (w : Walk) (count : Nat) (issuer : Issuer)
    (certificate : Bytes) : Inquiry Issuer :=
  match w.mode with
  | .identityLinkage => return issuer
  | .full => w.link count issuer certificate

/-- Walks the bundle that `cabundle` begins with and, in full mode, the
enclave's own certificate. Gives the key that the document must be
signed by, and the length of the bundle. -/
def chain (w : Walk) (certificate cabundle : Bytes) :
    Inquiry (PublicKey × Nat) := do
  let (count, r) ← Bundle.count (Reader.ofBytes cabundle)
  let (issuer, r) ← w.entries 0 w.anchor.issuer r count
  let issuer ← w.leaf count issuer certificate
  return (issuer.key, r.position)

end Walk

end Attestation
