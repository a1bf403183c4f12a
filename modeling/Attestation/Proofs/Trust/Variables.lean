/-
A setup that is loaded, variable by variable. `Setting.Readable` says
which texts a variable may have, in terms of what they spell: hex digits
of a point, decimal digits of a number, with blanks around them.

Loading succeeds exactly if every variable is absent or readable, and
otherwise names the first one that is neither, in the order of
`Setting.all` (`load_namesFirst`). This is the general notion of a row
of checks that stops at the first failure (`NamesFirst`), with a
variable as its member: one variable is such a row by itself
(`readSetting_namesFirst`), and the rows are put together in the order
in which they are read.

Each part of what is loaded comes from its own variable alone
(`loadedFrom_iff`). `Given` says it of one part: the variable is absent
and the part is the standard one, or it is set and spells the part. Two
lookups that agree on a variable load the same part
(`samePart_of_load`), however they differ on the others.
`load_by_variables` collects all of this.

The key of a setup is always a point of the curve: one that is read was
checked, and the standard one, which is not, is found to be one by
computing the two sides of the equation (`isValid_standard`).
-/
import Attestation.Proofs.Bytes.Digits
import Attestation.Proofs.Refusal.FirstFailure
import Attestation.Proofs.Text.Blank
import Attestation.Proofs.Text.Decimal
import Attestation.Proofs.Text.Hex
import Attestation.Proofs.Trust.Loading

namespace Attestation

-- ====================================================== keys of points

namespace PublicKey

variable {key : PublicKey} {x y : P384.Coordinate}

/-- The key that names the point with two coordinates. -/
def ofPoint (x y : P384.Coordinate) : PublicKey :=
  ⟨0x04 :: (Bytes.ofNat 48 x.val ++ Bytes.ofNat 48 y.val), by simp⟩

/-- A coordinate is 48 bytes of the key that are below the prime. -/
theorem coordinate?_eq_some_iff {start : Nat} :
    key.coordinate? start = some x
      ↔ Bytes.bigEndian ((key.toList.drop start).take 48) = x.val := by
  unfold coordinate?
  by_cases h : Bytes.bigEndian ((key.toList.drop start).take 48) < P384.prime
  · simp [h, Fin.ext_iff]
  · simp only [h, dite_false]
    refine ⟨nofun, fun hx => absurd x.isLt ?_⟩
    rw [← hx]
    exact h

/-- What follows the form of a key are the spellings of its
coordinates. -/
theorem eq_ofPoint_iff :
    key = ofPoint x y
      ↔ key.form = 0x04 ∧ key.coordinate? 1 = some x
        ∧ key.coordinate? 49 = some y := by
  have hprime : P384.prime < 256 ^ 48 := by decide
  rw [coordinate?_eq_some_iff, coordinate?_eq_some_iff]
  constructor
  · rintro rfl
    have hfirst : ((ofPoint x y).toList.drop 1).take 48
        = Bytes.ofNat 48 x.val :=
      List.take_left' (Bytes.length_ofNat _ _)
    have hsecond : ((ofPoint x y).toList.drop 49).take 48
        = Bytes.ofNat 48 y.val := by
      have hdrop : (ofPoint x y).toList.drop 49 = Bytes.ofNat 48 y.val :=
        List.drop_left' (Bytes.length_ofNat _ _)
      rw [hdrop]
      exact List.take_of_length_le (by simp)
    rw [hfirst, hsecond, Bytes.bigEndian_ofNat (Nat.lt_trans x.isLt hprime),
      Bytes.bigEndian_ofNat (Nat.lt_trans y.isLt hprime)]
    exact ⟨rfl, rfl, rfl⟩
  · rintro ⟨hform, hx, hy⟩
    obtain ⟨_ | ⟨b, rest⟩, hlength⟩ := key
    · cases hlength
    · have hrest : rest.length = 96 := Nat.succ.inj hlength
      have hb : b = 0x04 := hform
      have hfirst : Bytes.bigEndian (rest.take 48) = x.val := hx
      have hsecond : Bytes.bigEndian ((rest.drop 48).take 48) = y.val := hy
      apply FixedBytes.ext
      show b :: rest
        = 0x04 :: (Bytes.ofNat 48 x.val ++ Bytes.ofNat 48 y.val)
      rw [hb, ← hfirst, ← hsecond,
        Bytes.ofNat_bigEndian_of_length (by simp [hrest]),
        Bytes.ofNat_bigEndian_of_length (by simp [hrest]),
        List.take_of_length_le (by simp [hrest] : (rest.drop 48).length ≤ 48),
        List.take_append_drop]

/-- A key is valid if it is written for a point of the curve. -/
theorem isValid_iff :
    key.isValid = true ↔ ∃ x y, P384.OnCurve x y ∧ key = ofPoint x y := by
  unfold isValid point?
  constructor
  · intro h
    by_cases hform : key.form = 0x04
    · cases hx : key.coordinate? 1 with
      | none => simp [hform, hx] at h
      | some x =>
        cases hy : key.coordinate? 49 with
        | none => simp [hform, hx, hy] at h
        | some y =>
          by_cases hcurve : P384.OnCurve x y
          · exact ⟨x, y, hcurve, eq_ofPoint_iff.2 ⟨hform, hx, hy⟩⟩
          · simp [hform, hx, hy, hcurve] at h
    · simp [hform] at h
  · rintro ⟨x, y, hcurve, hkey⟩
    obtain ⟨hform, hx, hy⟩ := eq_ofPoint_iff.1 hkey
    simp [hform, hx, hy, hcurve]

end PublicKey

-- =============================================== what a text may spell

/-- Between blanks, in letters of either case, stand the 194 hex digits
of a key that names a point of the curve. -/
def KeyText (text : String) (key : PublicKey) : Prop :=
  ∃ digits, Text.Frames digits text.toList
    ∧ digits.map Char.toLower = Hex.encode key.toList
    ∧ ∃ x y, P384.OnCurve x y ∧ key = .ofPoint x y

/-- Between blanks stand the digits of a number of at most 64 bits. -/
def NumberText (text : String) (number : UInt64) : Prop :=
  ∃ word, Text.Frames word text.toList
    ∧ Decimal.Spells word number.toNat

/-- Between blanks stand the digits of a number up to a hundred. -/
def PercentText (text : String) (percent : UInt64) : Prop :=
  NumberText text percent ∧ percent.toNat ≤ 100

variable {text : String} {key : PublicKey} {number percent : UInt64}

/-- A key is read from the texts that spell it. -/
theorem parseKey_eq_ok_iff : parseKey text = .ok key ↔ KeyText text key := by
  unfold parseKey
  constructor
  · intro h
    obtain ⟨data, hhex, h₁⟩ := bind_eq_ok_iff.1 h
    obtain ⟨key', hlength, h₂⟩ := bind_eq_ok_iff.1 h₁
    obtain ⟨_, hvalid, h₃⟩ := bind_eq_ok_iff.1 h₂
    cases h₃
    obtain rfl :=
      FixedBytes.ofList?_eq_some_iff.1 (demand_eq_ok_iff.1 hlength)
    obtain ⟨digits, hframes, hdigits⟩ :=
      Hex.decode_trim_iff.1 (mapError_eq_ok_iff.1 hhex)
    exact ⟨digits, hframes, hdigits,
      PublicKey.isValid_iff.1 (require_eq_ok_iff.1 hvalid)⟩
  · rintro ⟨digits, hframes, hdigits, hpoint⟩
    have hhex := Hex.decode_trim_iff.2 ⟨digits, hframes, hdigits⟩
    refine bind_eq_ok_iff.2 ⟨key.toList, mapError_eq_ok_iff.2 hhex, ?_⟩
    refine bind_eq_ok_iff.2 ⟨key,
      demand_eq_ok_iff.2 (FixedBytes.ofList?_toList key), ?_⟩
    exact bind_eq_ok_iff.2
      ⟨(), require_eq_ok_iff.2 (PublicKey.isValid_iff.2 hpoint), rfl⟩

theorem parseSeconds_eq_ok_iff :
    parseSeconds text = .ok number ↔ NumberText text number := by
  rw [parseSeconds, mapError_eq_ok_iff, Decimal.parseWord_eq_ok_iff]
  exact Decimal.spells_trim_iff

theorem parsePercent_eq_ok_iff :
    parsePercent text = .ok percent ↔ PercentText text percent := by
  have hlimit : percent ≤ maxFuzzPercent ↔ percent.toNat ≤ 100 :=
    UInt64.le_iff_toNat_le
  unfold parsePercent PercentText
  rw [← parseSeconds_eq_ok_iff, ← hlimit]
  constructor
  · intro h
    obtain ⟨percent', hseconds, h₁⟩ := bind_eq_ok_iff.1 h
    obtain ⟨_, hsmall, h₂⟩ := bind_eq_ok_iff.1 h₁
    cases h₂
    exact ⟨hseconds, require_eq_ok_iff.1 hsmall⟩
  · rintro ⟨hseconds, hsmall⟩
    exact bind_eq_ok_iff.2 ⟨percent, hseconds,
      bind_eq_ok_iff.2 ⟨(), require_eq_ok_iff.2 hsmall, rfl⟩⟩

-- ======================================================= the variables

namespace Setting

/-- The texts that a variable may have. -/
def Readable : Setting → String → Prop
  | .rootKey, text => ∃ key, KeyText text key
  | .rootName, _ => True
  | .rootExpiry, text => ∃ number, NumberText text number
  | .fullChain, _ => True
  | .fuzzPercent, text => ∃ percent, PercentText text percent

/-- A variable is absent or readable. -/
def Good (setting : Setting) (lookup : String → Option String) : Prop :=
  ∀ text, lookup setting.name = some text → setting.Readable text

/-- Every variable is in the row of those that are read. -/
theorem mem_all (setting : Setting) : setting ∈ all := by
  cases setting <;> decide

end Setting

namespace Setup

open Setting

variable {lookup : String → Option String} {setup : Setup}

/-- The reading of one variable succeeds exactly if it is good, and
every error of that reading names it. -/
theorem readSetting_namesFirst {α : Type} (lookup : String → Option String)
    (setting : Setting) {parse : String → Except ValueFault α}
    (standard : α)
    (hparse : ∀ text, (∃ value, parse text = .ok value)
      ↔ setting.Readable text) :
    NamesFirst [setting] (fun setting => setting.Good lookup)
      SetupError.setting
      (readSetting lookup setting parse standard) := by
  unfold readSetting
  cases htext : lookup setting.name with
  | none =>
    refine List.forall_mem_singleton.2 ?_
    intro text hstated
    rw [htext] at hstated
    cases hstated
  | some text =>
    refine .of_mapError (fun fault => rfl) ?_
    rw [hparse text, Good]
    constructor
    · intro hgood
      exact hgood text htext
    · intro hreadable text' hstated
      rw [htext] at hstated
      cases hstated
      exact hreadable

/-- The variables are read in turn, and the first bad one ends it. -/
theorem load_namesFirst (lookup : String → Option String) :
    NamesFirst Setting.all (fun setting => setting.Good lookup)
      SetupError.setting (load lookup) := by
  unfold load Setting.all
  refine .bind (readSetting_namesFirst lookup .rootKey _
    fun text => exists_congr fun key => parseKey_eq_ok_iff) ?_
  intro key _
  -- every text is a name
  refine .bind (readSetting_namesFirst lookup .rootName _
    fun text => iff_of_true ⟨text, rfl⟩ trivial) ?_
  intro name _
  refine .bind (readSetting_namesFirst lookup .rootExpiry _
    fun text => exists_congr fun number => parseSeconds_eq_ok_iff) ?_
  intro expiry _
  -- and every text sets a mode
  refine .bind (readSetting_namesFirst lookup .fullChain _
    fun text => iff_of_true ⟨modeOf text, rfl⟩ trivial) ?_
  intro mode _
  refine .bind (readSetting_namesFirst lookup .fuzzPercent _
    fun text => exists_congr fun percent => parsePercent_eq_ok_iff) ?_
  intro percent _
  exact .pure _

/-- A setup is loaded exactly if no variable is bad. -/
theorem exists_load_iff :
    (∃ setup, load lookup = .ok setup)
      ↔ ∀ setting : Setting, setting.Good lookup := by
  rw [(load_namesFirst lookup).exists_ok_iff]
  constructor
  · intro h setting
    exact h setting setting.mem_all
  · intro h setting _
    exact h setting

/-- The error names the first bad variable. -/
theorem load_eq_error_iff {setting : Setting} :
    (∃ fault, load lookup = .error ⟨setting, fault⟩)
      ↔ FirstFailing Setting.all (fun setting => setting.Good lookup)
          setting := by
  rw [← (load_namesFirst lookup).exists_error_iff]
  constructor
  · rintro ⟨fault, herror⟩
    exact ⟨⟨setting, fault⟩, herror, rfl⟩
  · rintro ⟨⟨_, fault⟩, herror, rfl⟩
    exact ⟨fault, herror⟩

-- ============================================================ the parts

/-- What one variable makes of its part of a setup: the standard value
if it is absent, and otherwise a value that its text spells. -/
def Given {α : Type} (lookup : String → Option String)
    (setting : Setting) (Spells : String → α → Prop)
    (standard value : α) : Prop :=
  lookup setting.name = none ∧ value = standard
    ∨ ∃ text, lookup setting.name = some text ∧ Spells text value

/-- A setup each of whose parts is what the part's own variable makes
of it. -/
structure LoadedFrom (lookup : String → Option String)
    (setup : Setup) : Prop where
  rootKey : Given lookup .rootKey KeyText standard.anchor.publicKey
    setup.anchor.publicKey
  /-- Every text is a name as it is, blanks included. -/
  rootName : setup.anchor.commonName
    = (lookup Setting.rootName.name).getD standard.anchor.commonName
  rootExpiry : Given lookup .rootExpiry NumberText
    standard.anchor.expiresAt setup.anchor.expiresAt
  fullChain :
    setup.mode = .full ↔ lookup Setting.fullChain.name = some "true"
  fuzzPercent : Given lookup .fuzzPercent PercentText
    standard.fuzzPercent setup.fuzzPercent

/-- A part is read from its variable if that is absent or spells it. -/
theorem readSetting_iff_given {α : Type} {setting : Setting}
    {parse : String → Except ValueFault α} {Spells : String → α → Prop}
    {standard value : α}
    (hparse : ∀ text, parse text = .ok value ↔ Spells text value) :
    readSetting lookup setting parse standard = .ok value
      ↔ Given lookup setting Spells standard value := by
  rw [readSetting_eq_ok_iff, Given]
  simp only [hparse]

theorem readName_iff {name standard : String} :
    readSetting lookup .rootName .ok standard = .ok name
      ↔ name = (lookup Setting.rootName.name).getD standard := by
  rw [readSetting_eq_ok_iff]
  cases lookup Setting.rootName.name with
  | none => simp
  | some text => simp [eq_comm]

/-- Only one word asks for the full chain, and it is not asked for by
default. -/
theorem readMode_iff {mode : TrustMode} :
    readSetting lookup .fullChain (fun text => .ok (modeOf text))
        standard.mode
        = .ok mode
      ↔ (mode = .full ↔ lookup Setting.fullChain.name = some "true") := by
  rw [readSetting_eq_ok_iff]
  cases lookup Setting.fullChain.name with
  | none => cases mode <;> simp [standard]
  | some text =>
    by_cases htrue : text = "true"
    · cases mode <;> simp [modeOf, htrue]
    · cases mode <;> simp [modeOf, htrue, standard]

/-- A setup loads if every part of it is given by its own variable. -/
theorem loadedFrom_iff : load lookup = .ok setup ↔ LoadedFrom lookup setup := by
  rw [load_eq_ok_iff, readName_iff, readMode_iff,
    readSetting_iff_given fun text => parseKey_eq_ok_iff,
    readSetting_iff_given fun text => parseSeconds_eq_ok_iff,
    readSetting_iff_given fun text => parsePercent_eq_ok_iff]
  constructor
  · rintro ⟨hkey, hname, hexpiry, hmode, hpercent⟩
    exact ⟨hkey, hname, hexpiry, hmode, hpercent⟩
  · rintro ⟨hkey, hname, hexpiry, hmode, hpercent⟩
    exact ⟨hkey, hname, hexpiry, hmode, hpercent⟩

/-- The standard key names a point of the curve. -/
theorem isValid_standard : standard.anchor.publicKey.isValid = true := by
  decide +kernel

/-- The key of a setup is a point of the curve, wherever it comes from.
-/
theorem LoadedFrom.isValid (h : LoadedFrom lookup setup) :
    setup.anchor.publicKey.isValid = true := by
  rcases h.rootKey with ⟨-, habsent⟩ | ⟨text, -, -, -, -, hpoint⟩
  · rw [habsent]
    exact isValid_standard
  · exact PublicKey.isValid_iff.2 hpoint

end Setup

/-- Two setups agree in the part that a variable sets. -/
def Setting.SamePart : Setting → Setup → Setup → Prop
  | .rootKey, setup, other =>
    setup.anchor.publicKey = other.anchor.publicKey
  | .rootName, setup, other =>
    setup.anchor.commonName = other.anchor.commonName
  | .rootExpiry, setup, other =>
    setup.anchor.expiresAt = other.anchor.expiresAt
  | .fullChain, setup, other => setup.mode = other.mode
  | .fuzzPercent, setup, other => setup.fuzzPercent = other.fuzzPercent

namespace Setup

variable {lookup lookup' : String → Option String} {setup setup' : Setup}

/-- Two lookups that agree on a variable read the same from it. -/
theorem readSetting_congr {α : Type} {setting : Setting}
    {parse : String → Except ValueFault α} {standard value value' : α}
    (hsame : lookup setting.name = lookup' setting.name)
    (h : readSetting lookup setting parse standard = .ok value)
    (h' : readSetting lookup' setting parse standard = .ok value') :
    value = value' := by
  unfold readSetting at h h'
  rw [hsame, h'] at h
  cases h
  rfl

/-- Whatever the other variables are, the same text of one variable
makes the same of its part. -/
theorem samePart_of_load {setting : Setting}
    (h : load lookup = .ok setup) (h' : load lookup' = .ok setup')
    (hsame : lookup setting.name = lookup' setting.name) :
    setting.SamePart setup setup' := by
  obtain ⟨hkey, hname, hexpiry, hmode, hpercent⟩ := load_eq_ok_iff.1 h
  obtain ⟨hkey', hname', hexpiry', hmode', hpercent'⟩ :=
    load_eq_ok_iff.1 h'
  cases setting with
  | rootKey => exact readSetting_congr hsame hkey hkey'
  | rootName => exact readSetting_congr hsame hname hname'
  | rootExpiry => exact readSetting_congr hsame hexpiry hexpiry'
  | fullChain => exact readSetting_congr hsame hmode hmode'
  | fuzzPercent => exact readSetting_congr hsame hpercent hpercent'

/-- A setup is loaded exactly if every variable is absent or readable,
and otherwise the error names the first variable that is neither. What
is loaded comes variable by variable, each part from its own, so its key
names a point of the curve and its percentage is at most a hundred. -/
theorem load_by_variables (lookup : String → Option String) :
    ((∃ setup, load lookup = .ok setup)
        ↔ ∀ setting : Setting, setting.Good lookup)
      ∧ (∀ setting : Setting,
        (∃ fault, load lookup = .error ⟨setting, fault⟩)
          ↔ FirstFailing Setting.all (fun setting => setting.Good lookup)
              setting)
      ∧ ∀ setup, (load lookup = .ok setup ↔ LoadedFrom lookup setup)
        ∧ (load lookup = .ok setup →
          setup.anchor.publicKey.isValid = true
            ∧ setup.fuzzPercent.toNat ≤ 100
            ∧ ∀ lookup' setup', load lookup' = .ok setup' →
              ∀ setting : Setting,
                lookup setting.name = lookup' setting.name →
                setting.SamePart setup setup') := by
  refine ⟨exists_load_iff, fun setting => load_eq_error_iff, ?_⟩
  intro setup
  refine ⟨loadedFrom_iff, fun hload => ⟨?_, ?_, ?_⟩⟩
  · exact (loadedFrom_iff.1 hload).isValid
  · exact UInt64.le_iff_toNat_le.1 (fuzzPercent_le_of_load hload)
  · intro lookup' setup' hload' setting hsame
    exact samePart_of_load hload hload' hsame

end Setup

end Attestation
