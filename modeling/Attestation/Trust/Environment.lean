/-
A setup read from environment variables. Each part of the setup has one
variable, an absent variable leaves the standard value, and the first
bad variable in the order of `Setting.all` is the one reported.
-/
import Attestation.Text.Blank
import Attestation.Text.Decimal
import Attestation.Text.Hex
import Attestation.Refusal.Basic
import Attestation.Trust.Setup

namespace Attestation

/-- A variable that a setup is read from. -/
inductive Setting where
  | rootKey
  | rootName
  | rootExpiry
  | fullChain
  | fuzzPercent
deriving DecidableEq

def Setting.name : Setting → String
  | .rootKey => "NITRO_ATTEST_ROOT_PUBKEY"
  | .rootName => "NITRO_ATTEST_ROOT_CN"
  | .rootExpiry => "NITRO_ATTEST_ROOT_EXPIRY"
  | .fullChain => "NITRO_ATTEST_FULL_CHAIN"
  | .fuzzPercent => "NITRO_ATTEST_FUZZ_PERCENT"

/-- The variables in the order in which they are read. -/
def Setting.all : List Setting :=
  [.rootKey, .rootName, .rootExpiry, .fullChain, .fuzzPercent]

/-- Why the value of a variable is refused. -/
inductive ValueFault where
  | hex (fault : Hex.Fault)
  | keyLength
  | notOnCurve
  | number (fault : Decimal.Fault)
  | percentTooLarge (percent : UInt64)
deriving DecidableEq

/-- The largest percentage that may be set. -/
def maxFuzzPercent : UInt64 := 100

def ValueFault.message : ValueFault → String
  | .hex fault => fault.message
  | .keyLength =>
    "97バイトの非圧縮P-384公開鍵である必要があります"
  | .notOnCurve => "P-384曲線上の点ではありません"
  | .number fault => fault.message
  | .percentTooLarge percent =>
    toString maxFuzzPercent ++ "以下である必要があります（"
      ++ toString percent ++ "）"

/-- A variable with a bad value. -/
structure SetupError where
  setting : Setting
  fault : ValueFault
deriving DecidableEq

def SetupError.message (e : SetupError) : String :=
  "環境変数 " ++ e.setting.name ++ " が不正です: " ++ e.fault.message

-- ==================================================== single values

/-- A key in hexadecimal, between blanks, that names a point of the
curve. -/
def parseKey (text : String) : Except ValueFault PublicKey := do
  let data ← (Hex.decode (Utf8.encode (Text.trim text.toList))).mapError
    ValueFault.hex
  let key ← demand (FixedBytes.ofList? 97 data) .keyLength
  require (PublicKey.isValid key = true) .notOnCurve
  return key

/-- A number of at most 64 bits, between blanks. -/
def parseSeconds (text : String) : Except ValueFault UInt64 :=
  (Decimal.parseWord (Text.trim text.toList)).mapError ValueFault.number

/-- A percentage, between blanks. -/
def parsePercent (text : String) : Except ValueFault UInt64 := do
  let percent ← parseSeconds text
  require (percent ≤ maxFuzzPercent) (.percentTooLarge percent)
  return percent

-- ======================================================== the setup

/-- The value of a variable as a function reads it, or a standard value
if the variable is absent. -/
def readSetting {α : Type} (lookup : String → Option String)
    (setting : Setting) (parse : String → Except ValueFault α)
    (standard : α) : Except SetupError α :=
  match lookup setting.name with
  | none => .ok standard
  | some text => (parse text).mapError fun fault => ⟨setting, fault⟩

/-- The mode that the text of its variable sets: only the exact word
true asks for the full chain. -/
def modeOf (text : String) : TrustMode :=
  if text = "true" then .full else Setup.standard.mode

/-- Reads a setup by looking variables up. -/
def Setup.load (lookup : String → Option String) :
    Except SetupError Setup := do
  let anchor := Setup.standard.anchor
  let key ← readSetting lookup .rootKey parseKey anchor.publicKey
  let name ← readSetting lookup .rootName .ok anchor.commonName
  let expiry ←
    readSetting lookup .rootExpiry parseSeconds anchor.expiresAt
  let mode ← readSetting lookup .fullChain
    (fun text => .ok (modeOf text)) Setup.standard.mode
  let percent ← readSetting lookup .fuzzPercent parsePercent
    Setup.standard.fuzzPercent
  return ⟨⟨key, name, expiry⟩, mode, percent⟩

end Attestation
