/-
Expected register values as they are written on the command line: an
index, an equals sign and 48 bytes in hexadecimal, with blanks allowed
around either part. Only the first equals sign separates.
-/
import Attestation.Document.Measurement
import Attestation.Text.Blank
import Attestation.Text.Decimal
import Attestation.Text.Hex
import Attestation.Text.Utf8

namespace Attestation

namespace Expectation

/-- Why a text is not an expectation. -/
inductive Fault where
  | noSeparator
  | badIndex (fault : Decimal.Fault)
  | badHex (fault : Hex.Fault)
  | badLength (count : Nat)
deriving DecidableEq

def Fault.message (text : String) : Fault → String
  | .noSeparator => "INDEX=HEX 形式ではありません: " ++ text
  | .badIndex fault =>
    "PCRインデックスが不正です: " ++ fault.message
  | .badHex fault => "PCR値が16進数ではありません: " ++ fault.message
  | .badLength count =>
    "PCR値は48バイトである必要があります（" ++ toString count
      ++ "バイト）"

/-- The parts of a text before and after its first equals sign. -/
def separate? (text : List Char) : Option (List Char × List Char) :=
  match text.dropWhile (· != '=') with
  | [] => none
  | _ :: after => some (text.takeWhile (· != '='), after)

/-- The index and the value that a text states. -/
def parse (text : String) : Except Fault (UInt8 × Pcr) := do
  let (left, right) ← demand (separate? text.toList) .noSeparator
  let index ← (Decimal.parse 255 (Text.trim left)).mapError Fault.badIndex
  let data ←
    (Hex.decode (Utf8.encode (Text.trim right))).mapError Fault.badHex
  let value ← demand (FixedBytes.ofList? 48 data) (.badLength data.length)
  return (UInt8.ofNat index, value)

end Expectation

end Attestation
