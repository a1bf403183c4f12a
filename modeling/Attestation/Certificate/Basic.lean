/-
What a certificate contributes to a chain. Serial number and names are
kept as SHA-256 digests only; the digest of a common name is the
identity by which an issuer is recognised.
-/
import Attestation.Hash.Sha256
import Attestation.Signature.Key
import Attestation.Time.Validity

namespace Attestation

/-- The part of a certificate that its issuer signed. -/
structure CertificateBody where
  serialHash : Digest256
  issuerHash : Digest256
  subjectHash : Digest256
  validity : Validity
  publicKey : PublicKey
deriving DecidableEq

/-- A certificate: what its body says, the bytes of the body as they
were signed, and the signature. -/
structure Certificate extends CertificateBody where
  /-- The body's bytes, header included. -/
  signed : Bytes
  /-- The issuer's signature over them, in DER. -/
  signature : Bytes
deriving DecidableEq

end Attestation
