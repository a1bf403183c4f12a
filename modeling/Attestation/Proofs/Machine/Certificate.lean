/-
Reading a certificate on a machine. Every part is cut out of the bytes
by a cursor, the search for a common name is given as many rounds as the
name has bytes, the signed part is the range between two places of one
cursor, and the key is copied from 97 bytes before the end of its field.

A certificate never has 65536 bytes or more, because what it is taken
from says its length in two bytes. That is all that the operations need:
each part of it is as short (`Cursor.Taken`), so the cursor over the
part has room too. Shortness is handed down from the bundle or the
payload to the certificate, to its body and to the names in it, and is
the only thing that is.

The search is where rounds could run out. On a machine that would be a
fault, and there is none because every round passes over a byte at least
(`search_agrees`, by induction on the rounds with the bytes that are
left as their bound). The library's search has no such number, and is
taken as it is.

There is one lemma for each function, in the same order as the functions
and in the shape of each. What they relate are values, and for the parts
that leave bytes behind also a cursor and a reader at the same place.
-/
import Attestation.Proofs.Certificate.Names
import Attestation.Proofs.Machine.Calendar
import Attestation.Proofs.Machine.Cursor

namespace Attestation

namespace Machine

open Attestation.Certificate (longSequence versionThree validityHeader
  utcTimeHeader wholeBits)

/-- What is found, or the fault of a certificate that lacks it. -/
def part {α : Type} (x : Search α) (fault : CertificateFault) : Run α :=
  want x (return .notACertificate fault)

-- ====================================================== common names

/-- The content of the next SET of a name. -/
def nextSet (c : Cursor) : Run (Bytes × Cursor) := do
  let c ← part (c.eat [0x31]) .nameNotSet
  let (length, c) ← part c.length .nameLength
  part (c.take length) .nameCut

/-- The place after the identifier of the common name, if the content
of a SET opens with it. -/
def opening (content : Bytes) : Search Cursor := do
  let c ← (Cursor.ofBytes content).eat [0x30]
  let (_, c) ← c.length
  c.eat CommonName.identifier

def textAfter (c : Cursor) : Run Bytes := do
  let (_, c) ← part c.byte .commonNameType
  let (length, c) ← part c.length .commonNameLength
  let (text, _) ← part (c.take length) .commonNameCut
  return text

/-- Looks for the common name, one SET in each round. -/
def search (rounds : Nat) (c : Cursor) : Run Bytes :=
  if c.isEmpty then
    liftM (Except.error .commonNameNotFound : Except Refusal Bytes)
  else
    match rounds with
    | 0 => liftM (Except.error .searchGoesOn : Checked Bytes)
    | rounds + 1 => do
      let (content, c) ← nextSet c
      match ← ((opening content).run : Checked (Option Cursor)) with
      | some c => textAfter c
      | none => search rounds c

def commonName (name : Bytes) : Run Bytes :=
  search name.length (.ofBytes name)

-- ============================================================= parts

def element (tag : UInt8) (missing length cut : CertificateFault)
    (c : Cursor) : Run (Bytes × Cursor) := do
  let c ← part (c.eat [tag]) missing
  let (n, c) ← part c.length length
  part (c.take n) cut

def shortElement (tag : UInt8) (missing length cut : CertificateFault)
    (c : Cursor) : Run (Bytes × Cursor) := do
  let c ← part (c.eat [tag]) missing
  let (n, c) ← part c.shortLength length
  part (c.take n) cut

def sequence (missing : CertificateFault) (c : Cursor) :
    Run (Bytes × Cursor) :=
  element 0x30 missing .sequenceLength .sequenceCut c

def validityPeriod (c : Cursor) : Run (Validity × Cursor) := do
  let c ← part (c.eat validityHeader) .validityHeader
  let (notBefore, c) ← part (c.fixed 13) .notBeforeCut
  let c ← part (c.eat utcTimeHeader) .notAfterHeader
  let (notAfter, c) ← part (c.fixed 13) .notAfterCut
  let notBefore ← seconds notBefore
  let notAfter ← seconds notAfter
  return (⟨notBefore, notAfter⟩, c)

def keyAtEnd (info : Bytes) : Run PublicKey := do
  require (97 ≤ info.length) (Refusal.notACertificate .keyInfoShort)
  let start ← sub info.length 97
  let tail ← slice info start info.length
  let key ← copy 97 tail
  let form ← index key.toList 0
  require (form = 0x04) (Refusal.notACertificate .keyCompressed)
  return key

-- ========================================================= the whole

def certificateBody (content : Bytes) : Run CertificateBody := do
  let c ← part ((Cursor.ofBytes content).eat versionThree)
    .versionNotThree
  let (serial, c) ←
    shortElement 0x02 .serialMissing .serialLength .serialCut c
  let (_, c) ←
    shortElement 0x30 .algorithmMissing .algorithmLength .algorithmCut c
  let (issuer, c) ← sequence .issuerMissing c
  let issuerName ← commonName issuer
  let (validity, c) ← validityPeriod c
  let (subject, c) ← sequence .subjectMissing c
  let subjectName ← commonName subject
  let (info, _) ← sequence .keyInfoMissing c
  let key ← keyAtEnd info
  return {
    serialHash := sha256 serial
    issuerHash := sha256 issuerName
    subjectHash := sha256 subjectName
    validity := validity
    publicKey := key }

def certificate (der : Bytes) : Run Certificate := do
  let c ← part ((Cursor.ofBytes der).eat longSequence) .notSequence
  let (length, start) ← part (c.nat 2) .lengthUnreadable
  let remaining ← start.remaining
  require (length = remaining) (Refusal.notACertificate .lengthMismatch)
  let c ← part (start.eat longSequence) .bodyNotSequence
  let (length, c) ← part (c.nat 2) .bodyLengthUnreadable
  let (content, stop) ← part (c.take length) .bodyCut
  let signed ← slice der start.pos stop.pos
  let body ← certificateBody content
  let (_, c) ← element 0x30 .outerAlgorithmMissing .outerAlgorithmLength
    .outerAlgorithmCut stop
  let (bits, c) ← element 0x03 .signatureMissing .signatureLength
    .signatureCut c
  let signature ← wholeBits bits
  require (c.isEmpty = true) (Refusal.notACertificate .trailingBytes)
  return { body with signed := signed, signature := signature }

-- ============================================== parts without faults

open Cursor

variable {α β : Type} {data : Bytes} {c : Cursor} {r : Reader}

/-- What is searched for and not found is refused with the same fault.
-/
theorem Agrees.part {R : α → β → Prop} {x : Search α} {y : Option β}
    {fault : CertificateFault} (hx : Finds R x y) :
    Agrees R (part x fault) (demand y (.notACertificate fault)) :=
  Agrees.want hx rfl

/-- The next SET is cut out alike. -/
theorem nextSet_agrees (h : Tracks data c r) :
    Agrees (With (Taken data)) (nextSet c) (CommonName.nextSet r) := by
  unfold nextSet CommonName.nextSet
  refine (Agrees.part (h.eat (by decide))).bind fun c r h => ?_
  refine (Agrees.part h.length).bind_with fun length c r h => ?_
  exact Agrees.part (h.take length)

/-- What a SET opens as is recognized alike. -/
theorem opening_finds {content : Bytes} (hsmall : content.length < 65536) :
    Finds (Tracks content) (opening content)
      (CommonName.opening? content) := by
  unfold opening CommonName.opening?
  refine ((Tracks.ofBytes hsmall).eat (by decide)).bind fun c r h => ?_
  refine h.length.bind_with fun _ c r h => ?_
  exact h.eat (by decide)

/-- The text behind the identifier is read alike. -/
theorem textAfter_agrees (h : Tracks data c r) :
    Agrees Eq (textAfter c) (CommonName.textAfter r) := by
  unfold textAfter CommonName.textAfter
  refine (Agrees.part h.byte).bind_with fun _ c r h => ?_
  refine (Agrees.part h.length).bind_with fun length c r h => ?_
  refine (Agrees.part (h.take length)).bind_with fun text _ _ _ => ?_
  exact .ok rfl

/-- By induction on the rounds: a SET takes at least one byte, so the
rounds last as long as there are bytes. -/
theorem search_agrees (rounds : Nat) (h : Tracks data c r)
    (hrounds : r.rest.length ≤ rounds) :
    Agrees Eq (search rounds c) (CommonName.search r) := by
  induction rounds generalizing c r with
  | zero =>
    have hempty : r.isEmpty = true := by
      rw [Reader.isEmpty_iff]
      exact List.eq_nil_of_length_eq_zero (Nat.le_zero.1 hrounds)
    rw [search, if_pos (h.isEmpty_eq.trans hempty), CommonName.search,
      if_pos hempty]
    exact .error _
  | succ rounds ih =>
    cases hempty : r.isEmpty with
    | true =>
      rw [search, if_pos (h.isEmpty_eq.trans hempty), CommonName.search,
        if_pos hempty]
      exact .error _
    | false =>
      have hc : ¬c.isEmpty = true := by
        rw [h.isEmpty_eq, hempty]
        exact Bool.false_ne_true
      rw [search, if_neg hc, CommonName.search_eq_bind hempty]
      refine (nextSet_agrees h).also.bind fun p q hset => ?_
      obtain ⟨hset, hnext⟩ := hset
      obtain ⟨content, c', r', rfl, rfl, hsmall, h'⟩ := hset.cases
      have hshorter := CommonName.nextSet_shorter hnext
      dsimp only
      rcases (opening_finds hsmall).cases with ⟨c₁, r₁, hc₁, hr₁, h₁⟩ | hnone
      · rw [hc₁, hr₁]
        exact textAfter_agrees h₁
      · rw [hnone.1, hnone.2]
        exact ih h' (by omega)

/-- As many rounds as a name has bytes are enough for it. -/
theorem commonName_agrees {name : Bytes} (hsmall : name.length < 65536) :
    Agrees Eq (commonName name) (CommonName.find name) :=
  search_agrees name.length (.ofBytes hsmall) (Nat.le_refl _)

variable {missing length cut : CertificateFault} {tag : UInt8}

/-- An element is read alike, and its content is as short as the whole.
-/
theorem element_agrees (h : Tracks data c r) :
    Agrees (With (Taken data)) (element tag missing length cut c)
      (Certificate.element tag missing length cut r) := by
  unfold element Certificate.element
  refine (Agrees.part (h.eat (by simp))).bind fun c r h => ?_
  refine (Agrees.part h.length).bind_with fun n c r h => ?_
  exact Agrees.part (h.take n)

/-- A short element is read alike too. -/
theorem shortElement_agrees (h : Tracks data c r) :
    Agrees (With (Taken data)) (shortElement tag missing length cut c)
      (Certificate.shortElement tag missing length cut r) := by
  unfold shortElement Certificate.shortElement
  refine (Agrees.part (h.eat (by simp))).bind fun c r h => ?_
  refine (Agrees.part h.shortLength).bind_with fun n c r h => ?_
  exact Agrees.part (h.take n)

theorem sequence_agrees (h : Tracks data c r) :
    Agrees (With (Taken data)) (sequence missing c)
      (Certificate.sequence missing r) :=
  element_agrees h

/-- Both times are read alike. -/
theorem validityPeriod_agrees (h : Tracks data c r) :
    Agrees (With fun _ => Tracks data) (validityPeriod c)
      (Certificate.validityPeriod r) := by
  unfold validityPeriod Certificate.validityPeriod
  refine (Agrees.part (h.eat (by decide))).bind fun c r h => ?_
  refine (Agrees.part (h.fixed (by omega))).bind_with
    fun notBefore c r h => ?_
  refine (Agrees.part (h.eat (by decide))).bind fun c r h => ?_
  refine (Agrees.part (h.fixed (by omega))).bind_with
    fun notAfter c r h => ?_
  refine (seconds_agrees notBefore).bind fun opens _ hopens => ?_
  cases hopens
  refine (seconds_agrees notAfter).bind fun closes _ hcloses => ?_
  cases hcloses
  exact .ok ⟨rfl, h⟩

/-- The key starts where the length check says that there are 97 bytes
to the end. -/
theorem keyAtEnd_agrees (info : Bytes) :
    Agrees Eq (keyAtEnd info) (Certificate.keyAtEnd info) := by
  unfold keyAtEnd Certificate.keyAtEnd
  by_cases hlong : 97 ≤ info.length
  · have htail : (info.drop (info.length - 97)).length = 97 := by
      rw [List.length_drop]
      omega
    obtain ⟨key, hkey⟩ : ∃ key : PublicKey,
        info.drop (info.length - 97) = key.toList := ⟨⟨_, htail⟩, rfl⟩
    have hslice : slice info (info.length - 97) info.length
        = .ok key.toList := by
      rw [slice_eq (Nat.sub_le _ _) (Nat.le_refl _), hkey,
        List.take_of_length_le]
      rw [key.length_toList]
      omega
    have hform : index key.toList 0 = .ok (PublicKey.form key) :=
      index_get key 0
    rw [if_pos hlong, FixedBytes.ofList?_eq_some_iff.2 hkey]
    refine Agrees.given (a := ()) (require_eq_ok_iff.2 hlong) ?_
    refine Agrees.check (sub_eq hlong) ?_
    refine Agrees.check hslice ?_
    refine Agrees.check (copy_eq key) ?_
    refine Agrees.check hform ?_
    refine Agrees.plain_bind fun _ _ => ?_
    exact .ok rfl
  · rw [require, if_neg hlong, if_neg hlong]
    exact .error _

-- ==================================================== whole certificates

/-- The body is read alike, part by part. -/
theorem certificateBody_agrees {content : Bytes}
    (hsmall : content.length < 65536) :
    Agrees Eq (certificateBody content)
      (Certificate.readBody content) := by
  unfold certificateBody Certificate.readBody
  refine (Agrees.part ((Tracks.ofBytes hsmall).eat (by decide))).bind
    fun c r h => ?_
  refine (shortElement_agrees h).bind_with fun serial c r h => ?_
  refine (shortElement_agrees h.2).bind_with fun _ c r h => ?_
  refine (sequence_agrees h.2).bind_with fun issuer c r h => ?_
  refine (commonName_agrees h.1).bind fun issuerName _ hissuer => ?_
  cases hissuer
  refine (validityPeriod_agrees h.2).bind_with fun validity c r h => ?_
  refine (sequence_agrees h).bind_with fun subject c r h => ?_
  refine (commonName_agrees h.1).bind fun subjectName _ hsubject => ?_
  cases hsubject
  refine (sequence_agrees h.2).bind_with fun info _ _ _ => ?_
  refine (keyAtEnd_agrees info).bind fun key _ hkey => ?_
  cases hkey
  exact .ok rfl

/-- A certificate of fewer than 65536 bytes, whatever they are, is read
without a fault. -/
theorem certificate_agrees {der : Bytes} (hsmall : der.length < 65536) :
    Agrees Eq (certificate der) (Certificate.read der) := by
  unfold certificate Certificate.read
  refine (Agrees.part ((Tracks.ofBytes hsmall).eat (by decide))).bind
    fun c r h => ?_
  refine (Agrees.part (h.nat (by omega))).bind_with
    fun length start start' hstart => ?_
  refine Agrees.check hstart.remaining ?_
  refine Agrees.plain_bind fun _ _ => ?_
  refine (Agrees.part (hstart.eat (by decide))).also.bind
    fun c r heat => ?_
  obtain ⟨h, hpass⟩ := heat
  refine (Agrees.part (h.nat (by omega))).also.bind fun p q hlength => ?_
  obtain ⟨hlength, hnat⟩ := hlength
  obtain ⟨length, c, r₁, rfl, rfl, h⟩ := hlength.cases
  refine (Agrees.part (h.take length)).also.bind fun p q hbody => ?_
  obtain ⟨hbody, htake⟩ := hbody
  obtain ⟨content, stop, stop', rfl, rfl, hcontent, hstop⟩ := hbody.cases
  have hforward : start'.position ≤ stop'.position := by
    have hpass : start'.Passes _ r := Reader.demand_pass?_iff.1 hpass
    have hnat : r.Passes _ r₁ := (Reader.demand_nat?_iff.1 hnat).2
    have htake : r₁.Passes _ stop' := (Reader.demand_take?_iff.1 htake).2
    rw [htake.position_eq, hnat.position_eq, hpass.position_eq]
    omega
  refine Agrees.check (hstart.slice_eq_upTo hstop hforward) ?_
  refine (certificateBody_agrees hcontent).bind fun body _ hbody => ?_
  cases hbody
  refine (element_agrees hstop).bind_with fun _ c r h => ?_
  refine (element_agrees h.2).bind_with fun bits c r h => ?_
  refine Agrees.plain_bind fun signature _ => ?_
  rw [h.2.isEmpty_eq]
  refine Agrees.plain_bind fun _ _ => ?_
  exact .ok rfl

end Machine

end Attestation
