/-
The rule on age that a line asks for, against the true time. Documents
carry milliseconds and the clock shows whole seconds, so what is judged
is the age that a document had when the current second began.

That age is short of the true one by less than a second. A document that
is too old by a second is therefore rejected, and one that is young
enough has no age to be rejected for. But a document of the current
second was not there yet when the second began: it counts as one from
the future, and the rule bears none of those. `ageRule_of_true_age` says
exactly this, `ageRule_rejects_half_second` is such a document, and
`maxAge_of_patience` says that a skew of a second less a millisecond is
all that the rule lacks.

The true time is a number of milliseconds here, and `shown` is what the
clock makes of it. All statements are in natural numbers: the product
with a thousand is taken in words that stop at the largest one, and
`toNat_mul_shown` says that a clock which shows a moment never gets
there. The largest age that can be asked for does get there, and then no
document is too old, which is what the cut at the largest word is for.
-/
import Attestation.CommandLine.Run

namespace Attestation

namespace AgeRule

variable {age skew seconds moment timestamp now : UInt64}

/-- A document is accepted between two moments: it is from the future by
no more than the skew, and was made no longer ago than the age. -/
theorem maxAge_eq_true_iff :
    maxAge age skew timestamp now = true
      ↔ timestamp.toNat ≤ (Saturating.mul now 1000).toNat + skew.toNat
        ∧ (Saturating.mul now 1000).toNat
          ≤ timestamp.toNat + age.toNat := by
  unfold maxAge
  by_cases h : Saturating.mul now 1000 < timestamp
  · have hlt := UInt64.lt_iff_toNat_lt.1 h
    have hsub := UInt64.toNat_sub_of_le _ _ (UInt64.le_of_lt h)
    simp only [h, if_true, decide_eq_true_eq, UInt64.le_iff_toNat_le, hsub]
    omega
  · have hle := UInt64.le_iff_toNat_le.1 (UInt64.not_lt.1 h)
    have hsub := UInt64.toNat_sub_of_le _ _ (UInt64.not_lt.1 h)
    simp only [h, if_false, decide_eq_true_eq, UInt64.le_iff_toNat_le, hsub]
    omega

-- ======================================================= the true time

/-- What the clock shows at a moment that is given in milliseconds: the
whole seconds. -/
def shown (moment : UInt64) : UInt64 :=
  moment / 1000

theorem toNat_shown (moment : UInt64) :
    (shown moment).toNat = moment.toNat / 1000 := by
  simp [shown]

theorem toNat_mul_thousand (seconds : UInt64) :
    (Saturating.mul seconds 1000).toNat
      = min (1000 * seconds.toNat) Saturating.top := by
  have hunit : (1000 : UInt64).toNat = 1000 := rfl
  rw [Saturating.toNat_mul, hunit, Nat.mul_comm]

/-- In milliseconds the clock shows the start of the current second.
The product never leaves the range, because the moment is in it. -/
theorem toNat_mul_shown (moment : UInt64) :
    (Saturating.mul (shown moment) 1000).toNat
      = 1000 * (moment.toNat / 1000) := by
  have hmoment := moment.toNat_lt
  rw [toNat_mul_thousand, toNat_shown]
  unfold Saturating.top UInt64.size
  omega

/-- No age in seconds is lost where its milliseconds leave the range:
every moment is younger than that. -/
theorem maxAge_shown_iff :
    maxAge (Saturating.mul seconds 1000) skew timestamp (shown moment)
        = true
      ↔ timestamp.toNat ≤ 1000 * (moment.toNat / 1000) + skew.toNat
        ∧ 1000 * (moment.toNat / 1000)
          ≤ timestamp.toNat + 1000 * seconds.toNat := by
  have hmoment := moment.toNat_lt
  rw [maxAge_eq_true_iff, toNat_mul_shown, toNat_mul_thousand]
  unfold Saturating.top UInt64.size
  omega

/-- With a skew of a second less a millisecond, what is young enough is
accepted, and what is too old by a second is rejected. -/
theorem maxAge_of_patience (hskew : skew.toNat = 999)
    (hpast : timestamp.toNat ≤ moment.toNat) :
    (moment.toNat - timestamp.toNat ≤ 1000 * seconds.toNat →
      maxAge (Saturating.mul seconds 1000) skew timestamp (shown moment)
        = true)
      ∧ (1000 * (seconds.toNat + 1) ≤ moment.toNat - timestamp.toNat →
        maxAge (Saturating.mul seconds 1000) skew timestamp (shown moment)
          = false) := by
  rw [← Bool.not_eq_true, maxAge_shown_iff, hskew]
  omega

end AgeRule

namespace Request

open AgeRule

variable {input : Input} {expected : List (UInt8 × Pcr)}
  {seconds moment timestamp : UInt64}

/-- What a line's rule compares: the time in the document against the
beginning of the current second. -/
theorem ageRule_eq_true_iff :
    (Request.verify input (some seconds) expected).ageRule timestamp
        (shown moment) = true
      ↔ timestamp.toNat ≤ 1000 * (moment.toNat / 1000)
        ∧ 1000 * (moment.toNat / 1000)
          ≤ timestamp.toNat + 1000 * seconds.toNat :=
  maxAge_shown_iff

/-- What the rule on age makes of documents that were made at the true
time or before it.

Of those that are no older than the seconds that the line gives, it
accepts the ones that were made before the current second or with its
first millisecond, and rejects the others. Those that are older by a
second or more it rejects. -/
theorem ageRule_of_true_age (input : Input)
    (expected : List (UInt8 × Pcr)) (seconds moment timestamp : UInt64) :
    (timestamp.toNat ≤ moment.toNat →
      moment.toNat - timestamp.toNat ≤ 1000 * seconds.toNat →
      ((Request.verify input (some seconds) expected).ageRule timestamp
          (shown moment) = true
        ↔ timestamp.toNat ≤ 1000 * (moment.toNat / 1000)))
      ∧ (timestamp.toNat ≤ moment.toNat →
        1000 * (seconds.toNat + 1) ≤ moment.toNat - timestamp.toNat →
        (Request.verify input (some seconds) expected).ageRule timestamp
          (shown moment) = false) := by
  rw [← Bool.not_eq_true, ageRule_eq_true_iff]
  constructor
  · intro hpast hyoung
    constructor
    · exact And.left
    · intro hbefore
      exact ⟨hbefore, by omega⟩
  · intro hpast hold haccepted
    omega

/-- A document of half a second ago is rejected, though a minute is
allowed: both moments are in one second. -/
theorem ageRule_rejects_half_second :
    (1700000000499 : UInt64).toNat ≤ (1700000000999 : UInt64).toNat
      ∧ (1700000000999 : UInt64).toNat - (1700000000499 : UInt64).toNat
        ≤ 1000 * (60 : UInt64).toNat
      ∧ (Request.verify ⟨"d", .raw, false, none⟩ (some 60) []).ageRule
          1700000000499 (shown 1700000000999) = false := by
  decide

end Request

end Attestation
