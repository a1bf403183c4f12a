/-
The period in which a certificate is valid, and the check of a time
against it. The period is widened at both ends by a percentage of its
length, in arithmetic that stops at the ends of the 64-bit range.
-/
import Attestation.Refusal.Basic
import Attestation.Time.Saturating

namespace Attestation

/-- A period of validity, in seconds since 1970, both ends included. -/
structure Validity where
  notBefore : UInt64
  notAfter : UInt64
deriving DecidableEq

namespace Validity

/-- How far each end is moved out: `percent` hundredths of the period's
length. -/
def slack (v : Validity) (percent : UInt64) : UInt64 :=
  Saturating.mul (Saturating.sub v.notAfter v.notBefore) percent / 100

/-- The first moment of the widened period. -/
def opens (v : Validity) (percent : UInt64) : UInt64 :=
  Saturating.sub v.notBefore (v.slack percent)

/-- The last moment of the widened period. -/
def closes (v : Validity) (percent : UInt64) : UInt64 :=
  Saturating.add v.notAfter (v.slack percent)

/-- Whether a moment lies in the widened period. -/
def check (v : Validity) (now percent : UInt64) :
    Except Refusal Unit := do
  require (v.opens percent ≤ now)
    (.certificateNotActive v.notBefore now)
  require (now ≤ v.closes percent)
    (.certificateExpired v.notAfter now)

end Validity

end Attestation
