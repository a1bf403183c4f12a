/-
What a setup that loads is made of. Each part of it comes from its own
variable, or is the standard one if that variable is absent
(`load_eq_ok_iff`), and the percentage of it is never above the one that
is allowed (`fuzzPercent_le_of_load`).

Loading goes through the variables in a fixed order and stops at the
first that is set to something it cannot read. For a setup that loads
the order has no say, so the five parts are independent; which variable
a failure names is the other half, and is told apart elsewhere.
-/
import Attestation.Trust.Environment

namespace Attestation

namespace Setup

variable {α : Type} {lookup : String → Option String} {setting : Setting}
  {parse : String → Except ValueFault α} {usual value : α}
  {setup : Setup}

/-- A part is the standard one without its variable, and otherwise what
the text of the variable is read as. -/
theorem readSetting_eq_ok_iff :
    readSetting lookup setting parse usual = .ok value
      ↔ lookup setting.name = none ∧ value = usual
        ∨ ∃ text, lookup setting.name = some text
          ∧ parse text = .ok value := by
  unfold readSetting
  cases htext : lookup setting.name with
  | none => simp [eq_comm]
  | some text =>
    dsimp only
    constructor
    · intro h
      refine Or.inr ⟨text, rfl, ?_⟩
      cases hparse : parse text with
      | ok parsed =>
        rw [hparse] at h
        cases h
        rfl
      | error fault =>
        rw [hparse] at h
        cases h
    · rintro (⟨habsent, -⟩ | ⟨stated, hstated, hparse⟩)
      · cases habsent
      · cases hstated
        rw [hparse]
        rfl

/-- A setup loads if each of its five parts is read from its own
variable. -/
theorem load_eq_ok_iff :
    load lookup = .ok setup
      ↔ readSetting lookup .rootKey parseKey standard.anchor.publicKey
          = .ok setup.anchor.publicKey
        ∧ readSetting lookup .rootName .ok standard.anchor.commonName
          = .ok setup.anchor.commonName
        ∧ readSetting lookup .rootExpiry parseSeconds
            standard.anchor.expiresAt
          = .ok setup.anchor.expiresAt
        ∧ readSetting lookup .fullChain (fun text => .ok (modeOf text))
            standard.mode
          = .ok setup.mode
        ∧ readSetting lookup .fuzzPercent parsePercent
            standard.fuzzPercent
          = .ok setup.fuzzPercent := by
  unfold load
  constructor
  · intro h
    obtain ⟨key, hkey, h⟩ := bind_eq_ok_iff.1 h
    obtain ⟨name, hname, h⟩ := bind_eq_ok_iff.1 h
    obtain ⟨expiry, hexpiry, h⟩ := bind_eq_ok_iff.1 h
    obtain ⟨mode, hmode, h⟩ := bind_eq_ok_iff.1 h
    obtain ⟨percent, hpercent, h⟩ := bind_eq_ok_iff.1 h
    cases h
    exact ⟨hkey, hname, hexpiry, hmode, hpercent⟩
  · rintro ⟨hkey, hname, hexpiry, hmode, hpercent⟩
    refine bind_eq_ok_iff.2 ⟨_, hkey, ?_⟩
    refine bind_eq_ok_iff.2 ⟨_, hname, ?_⟩
    refine bind_eq_ok_iff.2 ⟨_, hexpiry, ?_⟩
    refine bind_eq_ok_iff.2 ⟨_, hmode, ?_⟩
    exact bind_eq_ok_iff.2 ⟨_, hpercent, rfl⟩

-- ======================================================== percentages

/-- A percentage that is read is allowed. -/
theorem parsePercent_le {text : String} {percent : UInt64}
    (h : parsePercent text = .ok percent) : percent ≤ maxFuzzPercent := by
  obtain ⟨_, _, h⟩ := bind_eq_ok_iff.1 h
  obtain ⟨_, hlimit, h⟩ := bind_eq_ok_iff.1 h
  cases h
  exact require_eq_ok_iff.1 hlimit

/-- No setup that loads widens periods by more than their length. -/
theorem fuzzPercent_le_of_load (h : load lookup = .ok setup) :
    setup.fuzzPercent ≤ maxFuzzPercent := by
  obtain ⟨-, -, -, -, hpercent⟩ := load_eq_ok_iff.1 h
  rcases readSetting_eq_ok_iff.1 hpercent with ⟨-, habsent⟩
    | ⟨text, -, hparse⟩
  · rw [habsent]
    decide
  · exact parsePercent_le hparse

end Setup

end Attestation
