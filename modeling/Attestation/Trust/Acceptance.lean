/-
What a caller accepts beyond what the chain proves: which ages of a
document, and which register values. A rule is a function to a Boolean;
this module holds the ready-made ones.
-/
import Attestation.Document.Measurement
import Attestation.Time.Saturating

namespace Attestation

-- ============================================================== time

/-- Whether a document made at a time (in milliseconds since 1970) is
acceptable now (in seconds since 1970). -/
abbrev AgeRule := (timestamp now : UInt64) → Bool

namespace AgeRule

def any : AgeRule :=
  fun _ _ => true

/-- Accepts documents of at most the given age, and documents from the
future by at most the given skew, both in milliseconds. -/
def maxAge (age skew : UInt64) : AgeRule :=
  fun timestamp now =>
    let nowMillis := Saturating.mul now 1000
    if nowMillis < timestamp then decide (timestamp - nowMillis ≤ skew)
    else decide (nowMillis - timestamp ≤ age)

end AgeRule

-- ========================================================= registers

/-- Whether register values are acceptable. -/
abbrev PcrRule := Pcrs → Bool

def PcrRule.any : PcrRule :=
  fun _ => true

/-- Values that registers are expected to have, at most one for an
index. -/
structure Expectations where
  entries : List (UInt8 × Pcr)
deriving DecidableEq

namespace Expectations

def none : Expectations :=
  ⟨[]⟩

/-- One more expectation, in place of any earlier one for the index. -/
def expect (e : Expectations) (index : UInt8) (value : Pcr) :
    Expectations :=
  ⟨(index, value) :: e.entries.filter fun entry => entry.1 != index⟩

/-- Expectations stated one after another. -/
def ofList (entries : List (UInt8 × Pcr)) : Expectations :=
  entries.foldl (fun e (index, value) => e.expect index value) none

/-- Accepts register values that meet every expectation. An expectation
for a register that is not kept is never met. -/
def accept (e : Expectations) : PcrRule :=
  fun pcrs =>
    e.entries.all fun (index, value) =>
      pcrs.get? index.toNat == some value

end Expectations

end Attestation
