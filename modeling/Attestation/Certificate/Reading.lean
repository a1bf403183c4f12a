/-
Reading a certificate. Only the one layout that the enclave authority
issues is accepted:

  Certificate          30 82 LL LL
    body               30 82 LL LL
      version          A0 03 02 01 02
      serial number    02 LL ..
      algorithm        30 LL ..         (passed over)
      issuer           30 len ..        (its common name is used)
      validity         30 1E 17 0D .. 17 0D ..
      subject          30 len ..        (its common name is used)
      key info         30 len .. 04 X Y (its last 97 bytes are the key)
      anything else                     (passed over)
    algorithm          30 len ..        (passed over)
    signature          03 len 00 ..

Here LL is one byte below 128 and len any of the three forms of a
length.
-/
import Attestation.Certificate.Basic
import Attestation.Certificate.CommonName
import Attestation.Time.UtcTime

namespace Attestation

namespace Certificate

/-- The header of a SEQUENCE with a two-byte length. -/
def longSequence : Bytes :=
  [0x30, 0x82]

/-- The version field of a version 3 certificate. -/
def versionThree : Bytes :=
  [0xa0, 0x03, 0x02, 0x01, 0x02]

/-- The header of a validity period of two UTCTimes, up to the first
time. -/
def validityHeader : Bytes :=
  [0x30, 0x1e, 0x17, 0x0d]

/-- The header of a UTCTime. -/
def utcTimeHeader : Bytes :=
  [0x17, 0x0d]

-- ============================================================= parts

/-- The content of an element with the given tag, its length in any of
the three forms, and the reader after it. -/
def element (tag : UInt8) (missing length cut : CertificateFault)
    (r : Reader) : Except Refusal (Bytes × Reader) := do
  let r ← demand (r.pass? [tag]) (.notACertificate missing)
  let (n, r) ← demand r.length? (.notACertificate length)
  demand (r.take? n) (.notACertificate cut)

/-- The content of an element with the given tag and a length below 128
in one byte, and the reader after it. -/
def shortElement (tag : UInt8) (missing length cut : CertificateFault)
    (r : Reader) : Except Refusal (Bytes × Reader) := do
  let r ← demand (r.pass? [tag]) (.notACertificate missing)
  let (n, r) ← demand r.shortLength? (.notACertificate length)
  demand (r.take? n) (.notACertificate cut)

/-- The content of a SEQUENCE in the body, and the reader after it. -/
def sequence (missing : CertificateFault) (r : Reader) :
    Except Refusal (Bytes × Reader) :=
  element 0x30 missing .sequenceLength .sequenceCut r

/-- The validity period, and the reader after it. -/
def validityPeriod (r : Reader) : Except Refusal (Validity × Reader) := do
  let r ← demand (r.pass? validityHeader)
    (.notACertificate .validityHeader)
  let (notBefore, r) ← demand (r.fixed? 13)
    (.notACertificate .notBeforeCut)
  let r ← demand (r.pass? utcTimeHeader) (.notACertificate .notAfterHeader)
  let (notAfter, r) ← demand (r.fixed? 13)
    (.notACertificate .notAfterCut)
  let notBefore ← UtcTime.seconds notBefore
  let notAfter ← UtcTime.seconds notAfter
  return (⟨notBefore, notAfter⟩, r)

/-- The key at the end of a key info. -/
def keyAtEnd (info : Bytes) : Except Refusal PublicKey := do
  let key ← demand
    (if 97 ≤ info.length then
      FixedBytes.ofList? 97 (info.drop (info.length - 97))
    else
      none)
    (.notACertificate .keyInfoShort)
  require (PublicKey.form key = 0x04) (.notACertificate .keyCompressed)
  return key

-- ====================================================== the whole

/-- Reads the content of the body. -/
def readBody (content : Bytes) : Except Refusal CertificateBody := do
  let r ← demand ((Reader.ofBytes content).pass? versionThree)
    (.notACertificate .versionNotThree)
  let (serial, r) ←
    shortElement 0x02 .serialMissing .serialLength .serialCut r
  let (_, r) ←
    shortElement 0x30 .algorithmMissing .algorithmLength .algorithmCut r
  let (issuer, r) ← sequence .issuerMissing r
  let issuerName ← CommonName.find issuer
  let (validity, r) ← validityPeriod r
  let (subject, r) ← sequence .subjectMissing r
  let subjectName ← CommonName.find subject
  let (info, _) ← sequence .keyInfoMissing r
  let key ← keyAtEnd info
  return {
    serialHash := sha256 serial
    issuerHash := sha256 issuerName
    subjectHash := sha256 subjectName
    validity := validity
    publicKey := key }

/-- The signature in the content of a BIT STRING, which must use all of
its bits. -/
def wholeBits (content : Bytes) : Except Refusal Bytes :=
  match content with
  | 0 :: signature => .ok signature
  | _ => .error (.notACertificate .signatureUnusedBits)

def read (der : Bytes) : Except Refusal Certificate := do
  let r ← demand ((Reader.ofBytes der).pass? longSequence)
    (.notACertificate .notSequence)
  let (length, start) ← demand (r.nat? 2)
    (.notACertificate .lengthUnreadable)
  require (length = start.remaining) (.notACertificate .lengthMismatch)
  let r ← demand (start.pass? longSequence)
    (.notACertificate .bodyNotSequence)
  let (length, r) ← demand (r.nat? 2)
    (.notACertificate .bodyLengthUnreadable)
  let (content, stop) ← demand (r.take? length)
    (.notACertificate .bodyCut)
  let body ← readBody content
  let (_, r) ← element 0x30 .outerAlgorithmMissing .outerAlgorithmLength
    .outerAlgorithmCut stop
  let (bits, r) ← element 0x03 .signatureMissing .signatureLength
    .signatureCut r
  let signature ← wholeBits bits
  require (r.isEmpty = true) (.notACertificate .trailingBytes)
  return { body with signed := start.upTo stop, signature := signature }

end Certificate

end Attestation
