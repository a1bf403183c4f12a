/-
What an attestation document states, once it is read: the module, the
time, the registers, the key that the chain of certificates leads to,
and three optional byte strings that the enclave asked to have
included.
-/
import Attestation.Document.Measurement
import Attestation.Signature.Key

namespace Attestation

/-- The content of an attestation document. -/
structure Statement where
  moduleId : String
  /-- When the document was made, in milliseconds since 1970. -/
  timestamp : UInt64
  pcrs : Pcrs
  /-- The key that must have signed the document. -/
  enclaveKey : PublicKey
  /-- A key of the enclave's choice. -/
  publicKey : Option Bytes
  /-- Data of the enclave's choice. -/
  userData : Option Bytes
  /-- A nonce that the enclave was given. -/
  nonce : Option Bytes
deriving DecidableEq

end Attestation
