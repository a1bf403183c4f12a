/-
The ways in which a file may hold a document: as it is, or as a text in
hexadecimal or Base64, with blanks allowed around the text.
-/
import Attestation.Text.Base64
import Attestation.Text.Blank
import Attestation.Text.Hex
import Attestation.Text.Utf8

namespace Attestation

/-- How a file holds a document. -/
inductive Encoding where
  | raw
  | hex
  | base64
deriving DecidableEq

namespace Encoding

def name : Encoding → String
  | raw => "raw"
  | hex => "hex"
  | base64 => "base64"

def ofName? (name : String) : Option Encoding :=
  [raw, hex, base64].find? fun encoding => encoding.name == name

/-- Why a file does not hold a document in an encoding. -/
inductive Fault where
  /-- A file in hexadecimal is not a text. -/
  | hexNotText (fault : Utf8.Fault)
  | badHex (fault : Hex.Fault)
  /-- A file in Base64 is not a text. -/
  | base64NotText (fault : Utf8.Fault)
  | badBase64 (fault : Base64.Fault)
deriving DecidableEq

/-- The bytes of a text without the blanks at its ends. -/
def trimmed (text : List Char) : Bytes :=
  Utf8.encode (Text.trim text)

/-- The document in the content of a file. -/
def decode (encoding : Encoding) (content : Bytes) :
    Except Fault Bytes :=
  match encoding with
  | raw => .ok content
  | hex => do
    let text ← (Utf8.decode content).mapError Fault.hexNotText
    (Hex.decode (trimmed text)).mapError Fault.badHex
  | base64 => do
    let text ← (Utf8.decode content).mapError Fault.base64NotText
    (Base64.decode (trimmed text)).mapError Fault.badBase64

end Encoding

end Attestation
