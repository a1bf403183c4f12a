/-
The plainest certificates. The authority's layout leaves much open that
a chain does not depend on: serial numbers, algorithms, extensions, the
forms of lengths. A `Profile` is what a chain does depend on (two names,
a period and a key), and `Profile.parts` fills in the rest as briefly as
the layout allows.

`read_parts` says that every profile can be issued: what its parts write
is read back as the certificate that was meant. So there are chains of
any names, periods and keys that one cares to state something about, and
a statement about chains of some kind can be shown to be about
something.

What makes this more than one example is that the texts of the names
vary in length. The sizes that the layout asks for are computed once
(`length_signedBytes`, `length_write`) and bounded by the limit of a
hundred bytes on a name, which keeps all lengths in forms that hold
them.

The module ends with the certificates of a small chain, which the
examples throughout are made from.
-/
import Attestation.Proofs.Certificate.Names

namespace Attestation

open Reader

-- ============================================================== names

namespace CommonName

/-- The text of a name with its tag, which is that of a UTF8String. -/
def plainText (text : Bytes) : Bytes :=
  0x0c :: UInt8.ofNat text.length :: text

/-- The content of a SET that holds a common name. -/
def plainContent (text : Bytes) : Bytes :=
  0x30 :: UInt8.ofNat (identifier ++ plainText text).length
    :: (identifier ++ plainText text)

/-- A distinguished name of nothing but a common name. -/
def plain (text : Bytes) : Bytes :=
  0x31 :: UInt8.ofNat (plainContent text).length :: plainContent text

variable {text : Bytes}

theorem length_plainContent : (plainContent text).length = text.length + 9 := by
  simp [plainContent, plainText, identifier]

theorem length_plain : (plain text).length = text.length + 11 := by
  rw [plain, List.length_cons, List.length_cons, length_plainContent]

/-- The content holds the text, in lengths of one byte. -/
theorem holds_plainContent (h : text.length ≤ 100) :
    Holds (plainContent text) text := by
  have hfits : (identifier ++ plainText text).length < 128 := by
    simp [identifier, plainText]
    omega
  have htext : text.length < 128 := by omega
  refine ⟨.byte, _, 0x0c, ⟨.byte, text, htext⟩, [], hfits, rfl, ?_⟩
  simp [plainContent, plainText, Der.Element.write, Der.LengthForm.write]

/-- A name of nothing else is a name up to its common name. -/
theorem upTo_plain (h : text.length ≤ 100) : UpTo (plain text) text := by
  have hfits : (plainContent text).length < 128 := by
    rw [length_plainContent]
    omega
  exact @UpTo.of_holds ⟨.byte, plainContent text, hfits⟩ text
    (holds_plainContent h)

/-- The common name is found in a name of nothing else. -/
theorem find_plain (h : text.length ≤ 100) :
    find (plain text) = .ok text := by
  have hfind := (upTo_plain h).find_append []
  rw [List.append_nil] at hfind
  exact hfind

end CommonName

-- =========================================================== profiles

namespace Certificate

/-- What a chain depends on in a certificate. The names are short enough
for lengths of one byte, the times exist, and the key is uncompressed. -/
structure Profile where
  issuer : Bytes
  issuer_fits : issuer.length ≤ 100
  subject : Bytes
  subject_fits : subject.length ≤ 100
  notBefore : UtcTime
  notAfter : UtcTime
  validity : Validity
  notBefore_eq : notBefore.seconds = .ok validity.notBefore
  notAfter_eq : notAfter.seconds = .ok validity.notAfter
  publicKey : PublicKey
  uncompressed : publicKey.form = 0x04

namespace Profile

/-- A name in the layout of a certificate. -/
def name (text : Bytes) (h : text.length ≤ 100) : Der.Element where
  form := .byte
  content := CommonName.plain text
  fits := by
    rw [CommonName.length_plain]
    show text.length + 11 < 128
    omega

/-- The body: an empty serial number, no algorithm, no extensions. -/
def bodyParts (p : Profile) : BodyParts where
  serial := ⟨[], by decide⟩
  algorithm := ⟨[], by decide⟩
  issuer := name p.issuer p.issuer_fits
  notBefore := p.notBefore
  notAfter := p.notAfter
  subject := name p.subject p.subject_fits
  keyInfo := ⟨.byte, p.publicKey.toList, by rw [p.publicKey.length_toList]; decide⟩
  extensions := []

/-- Everything but the two names has a length of its own. -/
theorem length_signedBytes (p : Profile) :
    p.bodyParts.signedBytes.length
      = p.issuer.length + p.subject.length + 170 := by
  simp [bodyParts, BodyParts.signedBytes, BodyParts.write,
    BodyParts.checkedBytes, BodyParts.validityBytes, name,
    Der.Element.write, Der.ShortElement.write, Der.LengthForm.write,
    CommonName.length_plain, longSequence, versionThree, validityHeader,
    utcTimeHeader]
  omega

/-- The whole is short enough for a two-byte length. -/
theorem length_lt (p : Profile) {algorithm bits : Bytes}
    (halgorithm : algorithm.length = 2) (hbits : bits.length = 3) :
    (p.bodyParts.signedBytes ++ algorithm ++ bits).length < 2 ^ 16 := by
  have hissuer := p.issuer_fits
  have hsubject := p.subject_fits
  rw [List.length_append, List.length_append, p.length_signedBytes,
    halgorithm, hbits]
  omega

/-- The certificate with an empty signature. -/
def parts (p : Profile) : Parts where
  body := p.bodyParts
  algorithm := ⟨.byte, [], by decide⟩
  bits := ⟨.byte, [0], by decide⟩
  signature := []
  bits_eq := rfl
  size_lt := p.length_lt rfl rfl

theorem length_write (p : Profile) :
    p.parts.write.length = p.issuer.length + p.subject.length + 179 := by
  simp [parts, Parts.write, Parts.content, p.length_signedBytes,
    Der.Element.write, Der.LengthForm.write, longSequence]
  omega

/-- The certificate that is meant. -/
def certificate (p : Profile) : Certificate where
  serialHash := sha256 []
  issuerHash := sha256 p.issuer
  subjectHash := sha256 p.subject
  validity := p.validity
  publicKey := p.publicKey
  signed := p.bodyParts.signedBytes
  signature := []

/-- The parts describe the certificate that was meant. -/
theorem describes_bodyParts (p : Profile) :
    p.bodyParts.Describes p.certificate.toCertificateBody where
  serialHash := rfl
  issuerHash := ⟨p.issuer, CommonName.find_plain p.issuer_fits, rfl⟩
  notBefore := p.notBefore_eq
  notAfter := p.notAfter_eq
  subjectHash := ⟨p.subject, CommonName.find_plain p.subject_fits, rfl⟩
  publicKey := ⟨[], rfl⟩
  uncompressed := p.uncompressed

/-- Every profile can be issued. -/
theorem read_parts (p : Profile) :
    Certificate.read p.parts.write = .ok p.certificate :=
  read_write ⟨p.describes_bodyParts, rfl, rfl⟩

end Profile

end Certificate

namespace SmallChain

/-- A certificate for one-letter names, valid from 2020 to 2030. -/
def profile (issuer subject fill : UInt8) : Certificate.Profile where
  issuer := [issuer]
  issuer_fits := by simp
  subject := [subject]
  subject_fits := by simp
  notBefore := ⟨Bytes.ascii "200101000000Z", rfl⟩
  notAfter := ⟨Bytes.ascii "300101000000Z", rfl⟩
  validity := ⟨1577836800, 1893456000⟩
  notBefore_eq := rfl
  notAfter_eq := rfl
  publicKey := ⟨0x04 :: List.replicate 96 fill, by simp⟩
  uncompressed := rfl

end SmallChain

end Attestation
