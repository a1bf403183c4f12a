/-
Verifying an attestation document, from its bytes to what it states:

  1. the trusted root must not be past its end;
  2. the document must be an envelope;
  3. its payload must be read, which walks the chain of certificates
     and so finds the key that must have signed the document;
  4. the document must be signed by that key;
  5. the register values must be acceptable.

The first failure ends it, and no part of a refused document's content
is given out.
-/
import Attestation.Document.Envelope
import Attestation.Document.Statement.Reading

namespace Attestation

/-- The walk that a verifier's setup means at a moment. -/
def Setup.walk (setup : Setup) (now : UInt64) : Walk where
  anchor := setup.anchor
  mode := setup.mode
  fuzzPercent := setup.fuzzPercent
  now := now

/-- Verifies a document at a moment, under the given rules. -/
def Setup.verify (setup : Setup) (now : UInt64) (accepts : AgeRule)
    (acceptsPcrs : PcrRule) (document : Bytes) : Inquiry Statement := do
  require (now < setup.anchor.expiresAt)
    (Refusal.rootExpired now setup.anchor.expiresAt)
  let envelope ← Envelope.read document
  let statement ← Statement.read (setup.walk now) accepts envelope.payload
  envelope.checkSigned statement.enclaveKey
  require (acceptsPcrs statement.pcrs = true) Refusal.pcrRejected
  return statement

end Attestation
