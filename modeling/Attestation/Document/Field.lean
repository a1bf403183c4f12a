/-
The nine fields of an attestation payload, in the one order in which
they may stand. A field opens with bytes that are known beforehand: its
key as a CBOR text and, where the value has only one possible form, the
header of the value or the whole of it.
-/
import Attestation.Bytes.Basic

namespace Attestation

inductive Field where
  | moduleId
  | digest
  | timestamp
  | pcrs
  | certificate
  | cabundle
  | publicKey
  | userData
  | nonce
deriving DecidableEq

namespace Field

def all : List Field :=
  [.moduleId, .digest, .timestamp, .pcrs, .certificate, .cabundle,
   .publicKey, .userData, .nonce]

def name : Field → String
  | .moduleId => "module_id"
  | .digest => "digest"
  | .timestamp => "timestamp"
  | .pcrs => "pcrs"
  | .certificate => "certificate"
  | .cabundle => "cabundle"
  | .publicKey => "public_key"
  | .userData => "user_data"
  | .nonce => "nonce"

/-- A text of fewer than twenty-four ASCII characters in CBOR: a byte
with its length, and the characters. -/
def shortText (text : String) : Bytes :=
  UInt8.ofNat (0x60 + text.length) :: Bytes.ascii text

/-- What follows the key in every payload: the header of a text with
a one-byte length, the text SHA384, the header of an eight-byte number,
a map of sixteen entries and the head of its first entry (key 0, 48
bytes), the header of a byte string with a two-byte length; nothing
where several forms are allowed. -/
def valueOpening : Field → Bytes
  | .moduleId => [0x78]
  | .digest => shortText "SHA384"
  | .timestamp => [0x1b]
  | .pcrs => [0xb0, 0x00, 0x58, 0x30]
  | .certificate => [0x59]
  | .cabundle | .publicKey | .userData | .nonce => []

/-- The bytes that a field opens with in every payload. -/
def opening (f : Field) : Bytes :=
  shortText f.name ++ f.valueOpening

end Field

/-- What the payload should hold at some place: the header of a map of
nine entries, or a field. -/
inductive Landmark where
  | mapHeader
  | field (f : Field)
deriving DecidableEq

def Landmark.name : Landmark → String
  | .mapHeader => "9要素のマップ"
  | .field f => f.name

end Attestation
