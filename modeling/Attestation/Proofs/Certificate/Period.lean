/-
How far a period of validity is widened, in whole numbers without end.
Words stop at the ends of their range, in the product, at the first
moment and at the last one. As long as the product fits into a word none
of this shows: a moment passes exactly if it is no further outside of
the period than so many hundredths of its length
(`check_eq_ok_iff_of_fits`).

Whole numbers are taken here and not natural ones because of periods
that end before they begin. Their length is negative, so a larger
percentage makes the window smaller, and it is empty anyway
(`check_ne_ok_of_inverted`); in words the length is zero instead, and
the window is empty all the same. With natural numbers this would be a case
of its own in every statement.

Certificates name seconds of 2000 to 2049, and no setup that loads
widens by more than a hundred hundredths. So their product always fits
(`share_lt_of_read`), which is the last part of the main statement,
`check_widened`. The bound has room: the percentage could be a hundred
million times larger before a word is too small.

The window as such, with both of its ends as words, is in the module on
windows; what is added here is how it compares with the intended one.
-/
import Attestation.Proofs.Certificate.Plain
import Attestation.Proofs.Time.Spelling
import Attestation.Proofs.Time.Window
import Attestation.Proofs.Trust.Loading

namespace Attestation

namespace Validity

variable {v : Validity} {now percent : UInt64}

-- ===================================================== whole numbers

/-- The length of the period, times the percentage. -/
def share (v : Validity) (percent : UInt64) : Int :=
  ((v.notAfter.toNat : Int) - v.notBefore.toNat) * percent.toNat

/-- A moment is no further outside of the period than the percentage
allows. -/
def Near (v : Validity) (percent now : UInt64) : Prop :=
  (v.notBefore.toNat : Int) - v.share percent / 100 ≤ now.toNat
    ∧ (now.toNat : Int) ≤ v.notAfter.toNat + v.share percent / 100

instance : Decidable (v.Near percent now) :=
  inferInstanceAs (Decidable (_ ∧ _))

-- ======================================================== the outcome

/-- The two refusals, and when each of them is given. -/
theorem check_eq (v : Validity) (now percent : UInt64) :
    v.check now percent
      = if now < v.opens percent then
          .error (.certificateNotActive v.notBefore now)
        else if v.closes percent < now then
          .error (.certificateExpired v.notAfter now)
        else .ok () := by
  have hopens : v.opens percent ≤ now ↔ ¬now < v.opens percent := by
    rw [UInt64.not_lt]
  have hcloses : now ≤ v.closes percent ↔ ¬v.closes percent < now := by
    rw [UInt64.not_lt]
  unfold check
  rw [require_bind]
  simp only [require, hopens, hcloses, ite_not]

/-- A window opens no later than the period begins. -/
theorem opens_le (v : Validity) (percent : UInt64) :
    v.opens percent ≤ v.notBefore := by
  rw [UInt64.le_iff_toNat_le, toNat_opens]
  exact Nat.sub_le _ _

/-- A window closes no earlier than the period ends. -/
theorem le_closes (v : Validity) (percent : UInt64) :
    v.notAfter ≤ v.closes percent := by
  have hword := v.notAfter.toNat_lt
  rw [UInt64.le_iff_toNat_le, toNat_closes]
  unfold Saturating.top UInt64.size
  omega

/-- A period that ends before it begins is not widened. -/
theorem slack_of_inverted (h : v.notAfter < v.notBefore) :
    (v.slack percent).toNat = 0 := by
  have hlt := UInt64.lt_iff_toNat_lt.1 h
  rw [toNat_slack, Nat.sub_eq_zero_of_le (Nat.le_of_lt hlt),
    Nat.zero_mul, Nat.zero_min]

/-- A period that ends before it begins has no moments. -/
theorem check_ne_ok_of_inverted (h : v.notAfter < v.notBefore) :
    v.check now percent ≠ .ok () := by
  intro hok
  obtain ⟨hopens, hcloses⟩ := check_eq_ok_iff.1 hok
  have hlt := UInt64.lt_iff_toNat_lt.1 h
  rw [UInt64.le_iff_toNat_le, toNat_opens, slack_of_inverted h] at hopens
  rw [UInt64.le_iff_toNat_le, toNat_closes, slack_of_inverted h] at hcloses
  omega

-- ==================================================== without saturation

/-- In a period that begins before it ends nothing is negative. -/
theorem share_of_le (h : v.notBefore ≤ v.notAfter) :
    v.share percent
      = ((v.notAfter.toNat - v.notBefore.toNat) * percent.toNat : Nat) := by
  have hle := UInt64.le_iff_toNat_le.1 h
  rw [share, ← Int.ofNat_sub hle, Int.natCast_mul]

/-- Where the product fits, the ends move out by exactly their share. -/
theorem toNat_slack_of_fits (h : v.notBefore ≤ v.notAfter)
    (hfits : v.share percent < 2 ^ 64) :
    ((v.slack percent).toNat : Int) = v.share percent / 100 := by
  rw [share_of_le h] at hfits ⊢
  rw [toNat_slack]
  unfold Saturating.top UInt64.size
  omega

/-- A period that ends before it begins has a share below zero. -/
theorem share_nonpos (h : v.notAfter < v.notBefore) :
    v.share percent ≤ 0 := by
  have hlt := UInt64.lt_iff_toNat_lt.1 h
  exact Int.mul_nonpos_of_nonpos_of_nonneg (by omega) (by omega)

/-- As long as the product fits into a word, the check is the intended
one. -/
theorem check_eq_ok_iff_of_fits (hfits : v.share percent < 2 ^ 64) :
    v.check now percent = .ok () ↔ v.Near percent now := by
  unfold Near
  by_cases h : v.notBefore ≤ v.notAfter
  · have hslack := toNat_slack_of_fits h hfits
    have hnow := now.toNat_lt
    rw [check_eq_ok_iff, UInt64.le_iff_toNat_le, UInt64.le_iff_toNat_le,
      toNat_opens, toNat_closes, ← hslack]
    unfold Saturating.top UInt64.size
    omega
  · have hinverted := UInt64.not_le.1 h
    have hlt := UInt64.lt_iff_toNat_lt.1 hinverted
    have hshare : v.share percent ≤ 0 := share_nonpos hinverted
    constructor
    · intro hok
      exact absurd hok (check_ne_ok_of_inverted hinverted)
    · rintro ⟨hfirst, hlast⟩
      omega

-- ======================================================= certificates

/-- The periods of certificates lie in the years 2000 to 2049. -/
theorem bounds_of_read {der : Bytes} {c : Certificate}
    (h : Certificate.read der = .ok c) :
    946684800 ≤ c.validity.notBefore.toNat
      ∧ c.validity.notAfter.toNat ≤ 2524607999 := by
  obtain ⟨p, -, hp⟩ := Certificate.exists_parts_of_read h
  exact ⟨(UtcTime.seconds_bounds hp.body.notBefore).1,
    (UtcTime.seconds_bounds hp.body.notAfter).2⟩

/-- The product fits for every certificate that is read, under every
setup that loads. -/
theorem share_lt_of_read {der : Bytes} {c : Certificate}
    {lookup : String → Option String} {setup : Setup}
    (hread : Certificate.read der = .ok c)
    (hload : Setup.load lookup = .ok setup) :
    c.validity.share setup.fuzzPercent < 2 ^ 64 := by
  obtain ⟨hfirst, hlast⟩ := bounds_of_read hread
  have hpercent : setup.fuzzPercent.toNat ≤ 100 :=
    UInt64.le_iff_toNat_le.1 (Setup.fuzzPercent_le_of_load hload)
  have hlength : (c.validity.notAfter.toNat : Int)
      - c.validity.notBefore.toNat ≤ 2524607999 := by omega
  calc c.validity.share setup.fuzzPercent
      ≤ 2524607999 * (setup.fuzzPercent.toNat : Int) :=
        Int.mul_le_mul_of_nonneg_right hlength (Int.natCast_nonneg _)
    _ < 2 ^ 64 := by omega

/-- A period that ends before it begins admits no moment, however far it
is widened. Any other one admits one stretch of moments, from a first to
a last, which the period itself lies in and which does not shrink when
the percentage grows; before it a certificate is not active, and after
it expired. Where the length times the percentage fits into a word, the
stretch is the one of whole numbers, and so it is for the period of
every certificate under every setup that loads. -/
theorem check_widened :
    (∀ (v : Validity) (now percent : UInt64),
      v.notAfter < v.notBefore → v.check now percent ≠ .ok ())
      ∧ (∀ v : Validity, v.notBefore ≤ v.notAfter →
        ∃ first last : UInt64 → UInt64,
          (∀ percent, first percent ≤ v.notBefore
            ∧ v.notAfter ≤ last percent)
          ∧ (∀ percent wider, percent ≤ wider →
            first wider ≤ first percent ∧ last percent ≤ last wider)
          ∧ ∀ now percent, v.check now percent
            = if now < first percent then
                .error (.certificateNotActive v.notBefore now)
              else if last percent < now then
                .error (.certificateExpired v.notAfter now)
              else .ok ())
      ∧ (∀ (v : Validity) (now percent : UInt64),
        v.share percent < 2 ^ 64 →
          (v.check now percent = .ok () ↔ v.Near percent now))
      ∧ ∀ (der : Bytes) (c : Certificate)
          (lookup : String → Option String) (setup : Setup),
        Certificate.read der = .ok c → Setup.load lookup = .ok setup →
          c.validity.share setup.fuzzPercent < 2 ^ 64
          ∧ ∀ now, c.validity.check now setup.fuzzPercent = .ok ()
            ↔ c.validity.Near setup.fuzzPercent now := by
  refine ⟨fun v now percent h => check_ne_ok_of_inverted h,
    fun v _ => ⟨v.opens, v.closes, ?_, ?_, ?_⟩,
    fun v now percent => check_eq_ok_iff_of_fits,
    fun der c lookup setup hread hload => ?_⟩
  · exact fun percent => ⟨v.opens_le percent, v.le_closes percent⟩
  · exact fun percent wider h => ⟨v.opens_anti h, v.closes_mono h⟩
  · exact fun now percent => v.check_eq now percent
  · have hfits := share_lt_of_read hread hload
    exact ⟨hfits, fun now => check_eq_ok_iff_of_fits hfits⟩

/-- A tenth of a thousand seconds at both ends; ends in the wrong order;
and a certificate under the standard setup. -/
theorem check_widened_thousand :
    Validity.check ⟨1000, 2000⟩ 2100 10 = .ok ()
      ∧ Validity.check ⟨1000, 2000⟩ 2101 10 ≠ .ok ()
      ∧ Validity.check ⟨2000, 1000⟩ 1500 100 ≠ .ok ()
      ∧ (SmallChain.profile 0x72 0x69 2).certificate.validity.share
          Setup.standard.fuzzPercent < 2 ^ 64 := by
  have hnear := check_widened.2.2.1 ⟨1000, 2000⟩
  have hread := (SmallChain.profile 0x72 0x69 2).read_parts
  have hload : Setup.load (fun _ => none) = .ok Setup.standard := rfl
  refine ⟨(hnear 2100 10 (by decide)).2 (by decide), ?_,
    check_widened.1 _ 1500 100 (by decide),
    (check_widened.2.2.2 _ _ _ _ hread hload).1⟩
  intro hok
  exact absurd ((hnear 2101 10 (by decide)).1 hok) (by decide)

end Validity

end Attestation
