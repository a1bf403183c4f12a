/-
How a file holds a document as a text. The blanks around the text do not
count, and what is between them is read as one document at most: in
hexadecimal as the one whose digits it has, in capital or small letters
(`decode_hex_eq_ok_iff`), and in Base64 as the one that is written as it
(`decode_base64_eq_ok_iff`). A text that is not ASCII between the blanks
holds no document.

A file is bytes, and its text is what they encode in UTF-8. So there are
three layers, each with its own way to go wrong, and both equivalences
name the text in the middle: it is the bytes' only one, and what is left
of it after trimming is ASCII, or there would be no digits in it.

`Holds` puts the three encodings side by side. A raw file holds the
document that it is, so for it every sequence of bytes will do, blanks
included. What is used of all this is `decode_of_holds`: it is how runs
on different files are compared.
-/
import Attestation.CommandLine.Encoding
import Attestation.Proofs.CommandLine.Items
import Attestation.Proofs.Text.Base64
import Attestation.Proofs.Text.Blank
import Attestation.Proofs.Text.Hex

namespace Attestation

namespace Encoding

variable {content document : Bytes}

theorem ofName?_name (e : Encoding) : ofName? e.name = some e := by
  cases e <;> decide

/-- A file in hexadecimal is a text that has the digits of the document
between its blanks, in letters of either case. -/
theorem decode_hex_eq_ok_iff :
    Encoding.hex.decode content = .ok document
      ↔ ∃ text, content = Utf8.encode text
          ∧ (Text.trim text).map Char.toLower = Hex.encode document := by
  refine bind_eq_ok_iff.trans ?_
  simp only [mapError_eq_ok_iff, Utf8.decode_eq_ok_iff,
    trimmed, Hex.decode_encode_iff]

/-- A file in Base64 is a text that has the document as it is written
between its blanks. -/
theorem decode_base64_eq_ok_iff :
    Encoding.base64.decode content = .ok document
      ↔ ∃ text, content = Utf8.encode text
          ∧ Text.trim text = Base64.text document := by
  refine bind_eq_ok_iff.trans ?_
  simp only [mapError_eq_ok_iff, Utf8.decode_eq_ok_iff,
    trimmed, Base64.decode_encode_iff]

/-- The content of a file that holds a document, for each way to hold
it. -/
def Holds (document : Bytes) : Encoding → Bytes → Prop
  | raw, content => content = document
  | hex, content => ∃ left digits right,
      (∀ c ∈ left ++ right, Text.isBlank c = true)
        ∧ digits.map Char.toLower = Hex.encode document
        ∧ content = Utf8.encode (left ++ digits ++ right)
  | base64, content => ∃ left right,
      (∀ c ∈ left ++ right, Text.isBlank c = true)
        ∧ content = Utf8.encode (left ++ Base64.text document ++ right)

/-- A file that holds a document is read as it. -/
theorem decode_of_holds {encoding : Encoding}
    (h : encoding.Holds document content) :
    encoding.decode content = .ok document := by
  cases encoding with
  | raw => exact congrArg Except.ok h
  | hex =>
    obtain ⟨left, digits, right, hblank, hdigits, rfl⟩ := h
    have hframes : Text.Frames digits (left ++ digits ++ right) :=
      ⟨left, right, rfl, hblank⟩
    exact decode_hex_eq_ok_iff.2
      ⟨_, rfl, Hex.spelling_trim_iff.2 ⟨digits, hframes, hdigits⟩⟩
  | base64 =>
    obtain ⟨left, right, hblank, rfl⟩ := h
    refine decode_base64_eq_ok_iff.2 ⟨_, rfl, ?_⟩
    apply Text.trim_of_frames ⟨left, right, rfl, hblank⟩
    intro c hc
    exact Base64.visible_of_mem_text hc

end Encoding

end Attestation
