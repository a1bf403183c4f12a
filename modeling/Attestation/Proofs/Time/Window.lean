/-
The widened period of validity as a window of moments. A check passes
exactly inside the window (`check_eq_ok_iff`), and the window only grows
with the percentage (`opens_anti`, `closes_mono`).

The ends are computed in words that stop at the ends of their range. In
natural numbers each step is a product, a quotient, a difference or a
sum, cut off at the largest word; all of these are monotone, and so no
corner of the range needs a case of its own.

`Covers` is the window written out in natural numbers, with both places
where it is cut off: the product before it is divided, and the end
behind the period. It names no step of the check, so that what is said
in terms of it can be read without it; `check_eq_ok_iff_covers` says
that it is what is checked.
-/
import Attestation.Time.Validity

namespace Attestation

namespace Validity

variable {v : Validity} {percent wider first now last : UInt64}

-- ==================================================== in natural numbers

/-- By how much a period is widened: the product is cut off at the
largest word, and divided then. -/
theorem toNat_slack (v : Validity) (percent : UInt64) :
    (v.slack percent).toNat
      = min ((v.notAfter.toNat - v.notBefore.toNat) * percent.toNat)
          Saturating.top / 100 := by
  simp [slack]

/-- The window opens that much before the period, at the earliest at
zero. -/
theorem toNat_opens (v : Validity) (percent : UInt64) :
    (v.opens percent).toNat
      = v.notBefore.toNat - (v.slack percent).toNat := by
  simp [opens]

/-- The window closes that much after the period, at the latest at the
largest word. -/
theorem toNat_closes (v : Validity) (percent : UInt64) :
    (v.closes percent).toNat
      = min (v.notAfter.toNat + (v.slack percent).toNat)
          Saturating.top := by
  simp [closes]

-- ============================================================ monotone

/-- A larger percentage widens more. -/
theorem slack_mono (v : Validity) (h : percent ≤ wider) :
    v.slack percent ≤ v.slack wider := by
  rw [UInt64.le_iff_toNat_le, toNat_slack, toNat_slack]
  have hmul : (v.notAfter.toNat - v.notBefore.toNat) * percent.toNat
      ≤ (v.notAfter.toNat - v.notBefore.toNat) * wider.toNat :=
    Nat.mul_le_mul_left _ (UInt64.le_iff_toNat_le.1 h)
  apply Nat.div_le_div_right
  omega

/-- A larger percentage opens the window no later. -/
theorem opens_anti (v : Validity) (h : percent ≤ wider) :
    v.opens wider ≤ v.opens percent := by
  have hslack := UInt64.le_iff_toNat_le.1 (v.slack_mono h)
  rw [UInt64.le_iff_toNat_le, toNat_opens, toNat_opens]
  omega

/-- A larger percentage closes the window no earlier. -/
theorem closes_mono (v : Validity) (h : percent ≤ wider) :
    v.closes percent ≤ v.closes wider := by
  have hslack := UInt64.le_iff_toNat_le.1 (v.slack_mono h)
  rw [UInt64.le_iff_toNat_le, toNat_closes, toNat_closes]
  omega

-- ============================================================ the check

/-- The check passes from the opening to the closing, both included. -/
theorem check_eq_ok_iff :
    v.check now percent = .ok ()
      ↔ v.opens percent ≤ now ∧ now ≤ v.closes percent := by
  unfold check
  constructor
  · intro h
    obtain ⟨_, hopen, h⟩ := bind_eq_ok_iff.1 h
    exact ⟨require_eq_ok_iff.1 hopen, require_eq_ok_iff.1 h⟩
  · intro h
    exact bind_eq_ok_iff.2
      ⟨(), require_eq_ok_iff.2 h.1, require_eq_ok_iff.2 h.2⟩

/-- A moment lies in the period, widened at both ends by so many
hundredths of its length. The numbers are natural ones, and a product
that is no word counts as the largest word. -/
def Covers (v : Validity) (percent now : UInt64) : Prop :=
  let length := v.notAfter.toNat - v.notBefore.toNat
  let slack := min (length * percent.toNat) (UInt64.size - 1) / 100
  v.notBefore.toNat - slack ≤ now.toNat
    ∧ now.toNat ≤ v.notAfter.toNat + slack

/-- No word is beyond the largest one, so it does not matter that the
last moment stops there. -/
theorem check_eq_ok_iff_covers :
    v.check now percent = .ok () ↔ v.Covers percent now := by
  have hnow : now.toNat ≤ UInt64.size - 1 :=
    Nat.le_pred_of_lt now.toNat_lt
  have htop : Saturating.top = UInt64.size - 1 := rfl
  rw [check_eq_ok_iff, UInt64.le_iff_toNat_le, UInt64.le_iff_toNat_le,
    toNat_opens, toNat_closes, toNat_slack, htop, Nat.le_min]
  exact and_congr_right fun _ => and_iff_left hnow

/-- Between two moments that pass, every moment passes, also with a
larger percentage. -/
theorem check_of_between (hwider : percent ≤ wider)
    (hfirst : first ≤ now) (hlast : now ≤ last)
    (h : v.check first percent = .ok ())
    (h' : v.check last percent = .ok ()) :
    v.check now wider = .ok () := by
  have hopens := (check_eq_ok_iff.1 h).1
  have hcloses := (check_eq_ok_iff.1 h').2
  refine check_eq_ok_iff.2 ⟨?_, ?_⟩
  · calc v.opens wider ≤ v.opens percent := v.opens_anti hwider
      _ ≤ first := hopens
      _ ≤ now := hfirst
  · calc now ≤ last := hlast
      _ ≤ v.closes percent := hcloses
      _ ≤ v.closes wider := v.closes_mono hwider

end Validity

end Attestation
