/-
Why a document is refused. Verification is all or nothing: the first
reason found ends it, and the reason is all that is reported. The
reasons carry what their words need; the words are in a module of their
own.

`demand` and `require` are how a rule names the reason that its failure
means.
-/
import Attestation.Bytes.Reader
import Attestation.Document.Field

namespace Attestation

/-- What is wrong with the envelope around the payload. -/
inductive EnvelopeFault where
  | header
  | payloadLength
  | payloadCut
  | signatureHeader
  | signatureCut
  | trailingBytes
deriving DecidableEq

/-- What is wrong with the framing of the certificate bundle. -/
inductive BundleFault where
  | missing
  | notArray
  | notByteString
deriving DecidableEq

/-- What is wrong with a certificate, in the order in which its parts
are read. -/
inductive CertificateFault where
  | notSequence
  | lengthUnreadable
  | lengthMismatch
  | bodyNotSequence
  | bodyLengthUnreadable
  | bodyCut
  | versionNotThree
  | serialMissing
  | serialLength
  | serialCut
  | algorithmMissing
  | algorithmLength
  | algorithmCut
  | issuerMissing
  | sequenceLength
  | sequenceCut
  | nameNotSet
  | nameLength
  | nameCut
  | commonNameType
  | commonNameLength
  | commonNameCut
  | validityHeader
  | notBeforeCut
  | notAfterHeader
  | notAfterCut
  | subjectMissing
  | keyInfoMissing
  | keyInfoShort
  | keyCompressed
  | outerAlgorithmMissing
  | outerAlgorithmLength
  | outerAlgorithmCut
  | signatureMissing
  | signatureLength
  | signatureCut
  | signatureUnusedBits
  | trailingBytes
deriving DecidableEq

inductive TimeFault where
  | zone
  | digit
  | year
  | month
  | day
  | clock
deriving DecidableEq

/-- Why a document, or a part of it, is refused. -/
inductive Refusal where
  /-- The trusted root is past its end, whatever the document says. -/
  | rootExpired (now expiresAt : UInt64)
  | malformedEnvelope (fault : EnvelopeFault)
  | invalidSignature
  /-- Something else stands where this was expected. -/
  | unexpectedField (expected : Landmark)
  | staleTimestamp (timestamp now : UInt64)
  /-- After `consumed` of `length` bytes the bytes ended too early, or
  too late. -/
  | trailingOrMissingData (consumed length : Nat)
  | malformedBundle (fault : BundleFault)
  /-- The certificate at this place in the chain does not follow from
  the one before it. -/
  | chainBroken (index : Nat)
  | notACertificate (fault : CertificateFault)
  | commonNameNotFound
  | invalidTimestamp (fault : TimeFault)
  | certificateExpired (notAfter now : UInt64)
  | certificateNotActive (notBefore now : UInt64)
  | pcrRejected
deriving DecidableEq

/-- The refusal when bytes end before a value is complete: everything
up to the reader was used. -/
def Reader.missing (r : Reader) : Refusal :=
  .trailingOrMissingData r.position (r.position + r.remaining)

-- ================================================ rules with reasons

/-- The value, or the reason that its absence means. -/
def demand {ε α : Type} (value? : Option α) (reason : ε) : Except ε α :=
  match value? with
  | some value => .ok value
  | none => .error reason

/-- Nothing, or the reason that a broken condition means. -/
def require {ε : Type} (condition : Prop) [Decidable condition]
    (reason : ε) : Except ε Unit :=
  if condition then .ok () else .error reason

@[simp] theorem demand_eq_ok_iff {ε α : Type} {value? : Option α}
    {reason : ε} {value : α} :
    demand value? reason = .ok value ↔ value? = some value := by
  cases value? <;> simp [demand]

@[simp] theorem require_eq_ok_iff {ε : Type} {condition : Prop}
    [Decidable condition] {reason : ε} {u : Unit} :
    require condition reason = .ok u ↔ condition := by
  unfold require
  split <;> simp_all

theorem require_bind {ε α : Type} {condition : Prop}
    [Decidable condition] {reason : ε} {next : Unit → Except ε α} :
    require condition reason >>= next
      = if condition then next () else .error reason := by
  unfold require
  split <;> rfl

/-- A run of steps that may fail succeeds when every step does. -/
theorem bind_eq_ok_iff {ε α β : Type} {x : Except ε α}
    {next : α → Except ε β} {value : β} :
    x >>= next = .ok value ↔ ∃ a, x = .ok a ∧ next a = .ok value := by
  cases x <;> simp [bind, Except.bind]

/-- Another reason for a failure makes no success. -/
theorem mapError_eq_ok_iff {ε ε' α : Type} {f : ε → ε'}
    {x : Except ε α} {value : α} :
    x.mapError f = .ok value ↔ x = .ok value := by
  refine ⟨fun h => ?_, fun h => ?_⟩
  · cases x with
    | ok other =>
      cases h
      rfl
    | error e => cases h
  · cases h
    rfl

end Attestation
