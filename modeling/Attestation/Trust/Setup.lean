/-
What a verifier is set up with: the root it trusts, how much of a chain
it checks, and how far it widens the validity of certificates.
-/
import Attestation.Trust.Anchor

namespace Attestation

/-- How much of a chain of certificates is checked. -/
inductive TrustMode where
  /-- Names and validity only. The first certificate of the bundle and
  the enclave's own are not looked at, and the document is to be signed
  by the last key of the bundle. -/
  | identityLinkage
  /-- Names, validity and signatures. The first certificate of the
  bundle must be the root, and the document is to be signed by the key
  of the enclave's own certificate. -/
  | full
deriving DecidableEq

def TrustMode.name : TrustMode → String
  | .identityLinkage => "identity_linkage"
  | .full => "full"

structure Setup where
  anchor : Anchor
  mode : TrustMode
  /-- By how many hundredths of its length a period of validity is
  widened at each end. -/
  fuzzPercent : UInt64
deriving DecidableEq

/-- Trust in the AWS root, names and validity only, and validity
widened by thirty hundredths. -/
def Setup.standard : Setup :=
  ⟨Anchor.awsNitro, .identityLinkage, 30⟩

end Attestation
