/-
The root that is trusted without proof: its key, the common name by
which the first certificate must name its issuer, and the moment from
which everything under it is refused.
-/
import Attestation.Hash.Sha256
import Attestation.Signature.Key
import Attestation.Text.Utf8

namespace Attestation

structure Anchor where
  publicKey : PublicKey
  commonName : String
  /-- In seconds since 1970; from this moment on the root counts as
  expired. -/
  expiresAt : UInt64
deriving DecidableEq

namespace Anchor

/-- The digest of the common name, by which issuers are recognised. -/
def identity (anchor : Anchor) : Digest256 :=
  sha256 (Utf8.encode anchor.commonName.toList)

/-- The key of the AWS Nitro Enclaves root. -/
def awsNitroKey : PublicKey where
  toList :=
    [0x04, 0xfc, 0x02, 0x54, 0xeb, 0xa6, 0x08, 0xc1, 0xf3, 0x68, 0x70,
     0xe2, 0x9a, 0xda, 0x90, 0xbe, 0x46, 0x38, 0x32, 0x92, 0x73, 0x6e,
     0x89, 0x4b, 0xff, 0xf6, 0x72, 0xd9, 0x89, 0x44, 0x4b, 0x50, 0x51,
     0xe5, 0x34, 0xa4, 0xb1, 0xf6, 0xdb, 0xe3, 0xc0, 0xbc, 0x58, 0x1a,
     0x32, 0xb7, 0xb1, 0x76, 0x07, 0x0e, 0xde, 0x12, 0xd6, 0x9a, 0x3f,
     0xea, 0x21, 0x1b, 0x66, 0xe7, 0x52, 0xcf, 0x7d, 0xd1, 0xdd, 0x09,
     0x5f, 0x6f, 0x13, 0x70, 0xf4, 0x17, 0x08, 0x43, 0xd9, 0xdc, 0x10,
     0x01, 0x21, 0xe4, 0xcf, 0x63, 0x01, 0x28, 0x09, 0x66, 0x44, 0x87,
     0xc9, 0x79, 0x62, 0x84, 0x30, 0x4d, 0xc5, 0x3f, 0xf4]
  length_eq := rfl

/-- The root of AWS Nitro Enclaves, which expires at
2049-10-28T14:28:05Z. -/
def awsNitro : Anchor :=
  ⟨awsNitroKey, "aws.nitro-enclaves", 2519044085⟩

end Anchor

end Attestation
