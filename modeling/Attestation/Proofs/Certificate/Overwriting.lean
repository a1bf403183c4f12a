/-
What a certificate says comes from its signed bytes, and not from all of
them. Two certificates with the same signed bytes say the same
(`body_eq_of_signed_eq`). And some stretches of a certificate are framed
but never looked into: the contents of the two algorithms, the key info
in front of the key, the names after the SET that holds their first
common name, and the extensions. A verifier that trusts a certificate
should know how much of it nobody has read.

A `Stencil` is a byte string with free places, and bytes fit it if they
are as many and agree outside of the free places. An `Outline` finds the
stretches in a certificate, and makes a stencil of it; whatever bytes
fit the stencil are laid out in the same way (`exists_parts_of_fits`),
and are read as a certificate that says the same. The theorem is about
all outlines and all bytes that fit, so several stretches may be
overwritten at once.

The proof does not read the overwritten bytes again. It takes the parts
of the certificate, replaces the contents of the stretches and shows
that the same parts describe it: the layout lemmas do the rest. Only the
names need an argument of their own, since what stands behind a common
name must not be found by the search, and that is `CommonName.Cut`,
which takes it from the rounds of a search.

How a signature is affected is not said here. The signed bytes do change
where the free places inside the body are overwritten, and the last part
of `read_overwritten` says that they change nowhere else.
-/
import Attestation.Proofs.Certificate.Plain
import Mathlib.Data.List.Forall2

namespace Attestation

-- =========================================================== stencils

/-- A byte string in which some of the places are free. -/
abbrev Stencil := List (UInt8 × Bool)

namespace Stencil

def fixed (data : Bytes) : Stencil :=
  data.map fun b => (b, false)

def free (data : Bytes) : Stencil :=
  data.map fun b => (b, true)

/-- The byte string itself. -/
def bytes (s : Stencil) : Bytes :=
  s.map Prod.fst

/-- As many bytes as the stencil has places, the same where it is not
free. -/
def Fits (s : Stencil) (data : Bytes) : Prop :=
  List.Forall₂ (fun place b => place.2 = false → b = place.1) s data

instance (s : Stencil) (data : Bytes) : Decidable (s.Fits data) :=
  inferInstanceAs (Decidable (List.Forall₂ _ s data))

variable {s s' : Stencil} {data word : Bytes}

@[simp] theorem bytes_append (s s' : Stencil) :
    bytes (s ++ s') = bytes s ++ bytes s' :=
  List.map_append

@[simp] theorem bytes_fixed (word : Bytes) : bytes (fixed word) = word := by
  rw [bytes, fixed, List.map_map]
  exact List.map_id word

@[simp] theorem bytes_free (word : Bytes) : bytes (free word) = word := by
  rw [bytes, free, List.map_map]
  exact List.map_id word

theorem Fits.length_eq (h : s.Fits data) :
    data.length = s.bytes.length := by
  rw [bytes, List.length_map]
  exact (List.Forall₂.length_eq h).symm

/-- What fits two stencils in a row can be cut between them. -/
theorem fits_append_iff :
    Fits (s ++ s') data
      ↔ ∃ first last, data = first ++ last ∧ s.Fits first
        ∧ s'.Fits last := by
  constructor
  · intro h
    induction s generalizing data with
    | nil => exact ⟨[], data, rfl, List.Forall₂.nil, h⟩
    | cons place s ih =>
      cases h with
      | cons hplace h =>
        obtain ⟨first, last, rfl, hfirst, hlast⟩ := ih h
        exact ⟨_ :: first, last, rfl, List.Forall₂.cons hplace hfirst, hlast⟩
  · rintro ⟨first, last, rfl, hfirst, hlast⟩
    induction hfirst with
    | nil => exact hlast
    | cons hplace hfirst ih => exact List.Forall₂.cons hplace ih

/-- Where nothing is free only one byte string fits. -/
theorem fits_fixed_iff : (fixed word).Fits data ↔ data = word := by
  induction word generalizing data with
  | nil => exact List.forall₂_nil_left_iff
  | cons b word ih =>
    constructor
    · intro h
      cases h with
      | cons hb h => rw [hb rfl, ih.1 h]
    · rintro rfl
      exact List.Forall₂.cons (fun _ => rfl) (ih.2 rfl)

/-- A fixed word, and then something that may be overwritten. -/
theorem fits_fixed_append_iff :
    Fits (fixed word ++ s) data
      ↔ ∃ last, data = word ++ last ∧ s.Fits last := by
  rw [fits_append_iff]
  constructor
  · rintro ⟨first, last, rfl, hfirst, hlast⟩
    exact ⟨last, by rw [fits_fixed_iff.1 hfirst], hlast⟩
  · rintro ⟨last, rfl, hlast⟩
    exact ⟨word, last, rfl, fits_fixed_iff.2 rfl, hlast⟩

end Stencil

open Stencil

-- =========================================================== elements

namespace Der

variable {tag : UInt8} {content : Stencil} {data : Bytes}

/-- An element, of whose content some places are free. -/
def Element.stencil (e : Element) (tag : UInt8) (content : Stencil) :
    Stencil :=
  fixed (tag :: e.form.write e.content.length) ++ content

def ShortElement.stencil (e : ShortElement) (tag : UInt8)
    (content : Stencil) : Stencil :=
  fixed [tag, UInt8.ofNat e.content.length] ++ content

theorem Element.bytes_stencil (e : Element)
    (hcontent : content.bytes = e.content) :
    (e.stencil tag content).bytes = e.write tag := by
  rw [stencil, bytes_append, bytes_fixed, hcontent, write]

theorem ShortElement.bytes_stencil (e : ShortElement)
    (hcontent : content.bytes = e.content) :
    (e.stencil tag content).bytes = e.write tag := by
  rw [stencil, bytes_append, bytes_fixed, hcontent, write]
  rfl

/-- The length is fixed, and so it is still that of the content. -/
theorem Element.exists_of_fits (e : Element)
    (hcontent : content.bytes = e.content)
    (h : (e.stencil tag content).Fits data) :
    ∃ e' : Element, data = e'.write tag
      ∧ content.Fits e'.content := by
  obtain ⟨last, rfl, hlast⟩ := fits_fixed_append_iff.1 h
  have hlength : last.length = e.content.length := by
    rw [hlast.length_eq, hcontent]
  refine ⟨⟨e.form, last, hlength ▸ e.fits⟩, ?_, hlast⟩
  change _ = tag :: e.form.write last.length ++ last
  rw [hlength]

/-- A short element keeps its length in the same way. -/
theorem ShortElement.exists_of_fits (e : ShortElement)
    (hcontent : content.bytes = e.content)
    (h : (e.stencil tag content).Fits data) :
    ∃ e' : ShortElement, data = e'.write tag
      ∧ content.Fits e'.content := by
  obtain ⟨last, rfl, hlast⟩ := fits_fixed_append_iff.1 h
  have hlength : last.length = e.content.length := by
    rw [hlast.length_eq, hcontent]
  refine ⟨⟨last, hlength ▸ e.fits⟩, ?_, hlast⟩
  change _ = tag :: UInt8.ofNat last.length :: last
  rw [hlength]
  rfl

end Der

-- ============================================================== names

namespace CommonName

/-- A name, cut after the SET that holds its first common name. -/
structure Cut (name : Bytes) where
  front : Bytes
  rest : Bytes
  name_eq : name = front ++ rest
  upTo : ∃ text, UpTo front text

variable {name data text : Bytes}

/-- What comes after the SET is free. -/
def Cut.stencil (cut : Cut name) : Stencil :=
  fixed cut.front ++ free cut.rest

theorem Cut.bytes_stencil (cut : Cut name) :
    cut.stencil.bytes = name := by
  rw [stencil, bytes_append, bytes_fixed, bytes_free, ← cut.name_eq]

/-- The same common name is found after the names behind it were
overwritten. -/
theorem Cut.find_of_fits (cut : Cut name) (h : cut.stencil.Fits data) :
    find data = find name := by
  obtain ⟨last, rfl, -⟩ := fits_fixed_append_iff.1 h
  obtain ⟨text, hupTo⟩ := cut.upTo
  have hname : find name = find (cut.front ++ cut.rest) :=
    congrArg find cut.name_eq
  rw [hname, hupTo.find_append, hupTo.find_append]

/-- A name in which a common name is found can be cut behind it. -/
theorem exists_cut (h : find name = .ok text) : Nonempty (Cut name) := by
  obtain ⟨front, rest, hname, hupTo⟩ := find_eq_ok_iff.1 h
  exact ⟨⟨front, rest, hname, text, hupTo⟩⟩

end CommonName

-- ======================================================= certificates

namespace Certificate

variable {der der' data : Bytes} {c c' : Certificate}

/-- The parts of a certificate, and where its names and its key info are
cut. -/
structure Outline (der : Bytes) (c : Certificate) where
  parts : Parts
  der_eq : der = parts.write
  describes : parts.Describes c
  issuer : CommonName.Cut parts.body.issuer.content
  subject : CommonName.Cut parts.body.subject.content
  /-- The key info in front of the key. -/
  keyInfoFront : Bytes
  keyInfo_eq :
    parts.body.keyInfo.content = keyInfoFront ++ c.publicKey.toList

/-- Every certificate has an outline. -/
theorem exists_outline (h : Certificate.read der = .ok c) :
    Nonempty (Outline der c) := by
  obtain ⟨p, hder, hp⟩ := exists_parts_of_read h
  obtain ⟨_, hissuer, -⟩ := hp.body.issuerHash
  obtain ⟨_, hsubject, -⟩ := hp.body.subjectHash
  obtain ⟨issuer⟩ := CommonName.exists_cut hissuer
  obtain ⟨subject⟩ := CommonName.exists_cut hsubject
  obtain ⟨front, hkeyInfo⟩ := hp.body.publicKey
  exact ⟨⟨p, hder, hp, issuer, subject, front, hkeyInfo⟩⟩

namespace Outline

variable (o : Outline der c)

/-- The content of the body. Free are the content of the algorithm, the
names behind the cut, the key info in front of the key, and the
extensions. -/
def bodyStencil : Stencil :=
  fixed (versionThree ++ o.parts.body.serial.write 0x02)
    ++ (o.parts.body.algorithm.stencil 0x30
        (free o.parts.body.algorithm.content)
      ++ (o.parts.body.issuer.stencil 0x30 o.issuer.stencil
        ++ (fixed o.parts.body.validityBytes
          ++ (o.parts.body.subject.stencil 0x30 o.subject.stencil
            ++ (o.parts.body.keyInfo.stencil 0x30
                (free o.keyInfoFront ++ fixed c.publicKey.toList)
              ++ free o.parts.body.extensions)))))

/-- The certificate. Free are the places that are in its body, and the
content of the outer algorithm. -/
def stencil : Stencil :=
  fixed (longSequence ++ Bytes.ofNat 2 o.parts.content.length
      ++ longSequence ++ Bytes.ofNat 2 o.parts.body.write.length)
    ++ (o.bodyStencil
      ++ (o.parts.algorithm.stencil 0x30 (free o.parts.algorithm.content)
        ++ fixed (o.parts.bits.write 0x03)))

theorem bytes_keyInfo :
    Stencil.bytes (free o.keyInfoFront ++ fixed c.publicKey.toList)
      = o.parts.body.keyInfo.content := by
  rw [bytes_append, bytes_free, bytes_fixed, o.keyInfo_eq]

/-- The body is itself before anything is overwritten. -/
theorem bytes_bodyStencil :
    o.bodyStencil.bytes = o.parts.body.write := by
  simp only [bodyStencil, bytes_append, bytes_fixed, bytes_free,
    Der.ShortElement.bytes_stencil, Der.Element.bytes_stencil,
    CommonName.Cut.bytes_stencil, o.bytes_keyInfo, BodyParts.write,
    BodyParts.checkedBytes, List.append_assoc]

theorem bytes_stencil : o.stencil.bytes = der := by
  simp only [stencil, bytes_append, bytes_fixed, bytes_free,
    Der.Element.bytes_stencil, o.bytes_bodyStencil, o.der_eq, Parts.write,
    Parts.content, BodyParts.signedBytes, List.append_assoc]

/-- What fits the stencil of a body is a body that says the same. -/
theorem exists_bodyParts_of_fits (h : o.bodyStencil.Fits data) :
    ∃ p : BodyParts, data = p.write
      ∧ p.Describes c.toCertificateBody := by
  obtain ⟨_, hdata, h₁⟩ := fits_fixed_append_iff.1 h
  obtain ⟨_, _, rfl, halgorithm, h₂⟩ := fits_append_iff.1 h₁
  obtain ⟨_, _, rfl, hissuer, h₃⟩ := fits_append_iff.1 h₂
  obtain ⟨_, rfl, h₄⟩ := fits_fixed_append_iff.1 h₃
  obtain ⟨_, _, rfl, hsubject, h₅⟩ := fits_append_iff.1 h₄
  obtain ⟨_, extensions, rfl, hkeyInfo, -⟩ := fits_append_iff.1 h₅
  obtain ⟨algorithm, rfl, -⟩ :=
    Der.ShortElement.exists_of_fits _ (bytes_free _) halgorithm
  obtain ⟨issuer, rfl, hissuerName⟩ :=
    Der.Element.exists_of_fits _ o.issuer.bytes_stencil hissuer
  obtain ⟨subject, rfl, hsubjectName⟩ :=
    Der.Element.exists_of_fits _ o.subject.bytes_stencil hsubject
  obtain ⟨keyInfo, rfl, hkeyInfoBytes⟩ :=
    Der.Element.exists_of_fits _ o.bytes_keyInfo hkeyInfo
  obtain ⟨front, key, hfront, -, hkey⟩ := fits_append_iff.1 hkeyInfoBytes
  have hp := o.describes.body
  refine ⟨⟨o.parts.body.serial, algorithm, issuer, o.parts.body.notBefore,
    o.parts.body.notAfter, subject, keyInfo, extensions⟩, ?_, ?_⟩
  · rw [hdata]
    simp only [BodyParts.write, BodyParts.checkedBytes,
      BodyParts.validityBytes, List.append_assoc]
  · refine ⟨hp.serialHash, ?_, hp.notBefore, hp.notAfter, ?_, ?_,
      hp.uncompressed⟩
    · dsimp only
      rw [o.issuer.find_of_fits hissuerName]
      exact hp.issuerHash
    · dsimp only
      rw [o.subject.find_of_fits hsubjectName]
      exact hp.subjectHash
    · exact ⟨front, hfront.trans (by rw [fits_fixed_iff.1 hkey])⟩

/-- What fits the stencil of a certificate is laid out as one that says
the same, with as many signed bytes. -/
theorem exists_parts_of_fits (h : o.stencil.Fits der') :
    ∃ p : Parts, der' = p.write
      ∧ p.body.signedBytes.length = c.signed.length
      ∧ p.Describes { c with signed := p.body.signedBytes } := by
  obtain ⟨_, hder', h₁⟩ := fits_fixed_append_iff.1 h
  obtain ⟨_, _, rfl, hbody, h₂⟩ := fits_append_iff.1 h₁
  obtain ⟨_, _, rfl, halgorithm, hbits⟩ := fits_append_iff.1 h₂
  obtain rfl := fits_fixed_iff.1 hbits
  have hbodyLength := hbody.length_eq
  have halgorithmLength := halgorithm.length_eq
  rw [o.bytes_bodyStencil] at hbodyLength
  rw [Der.Element.bytes_stencil _ (bytes_free _)] at halgorithmLength
  obtain ⟨body, rfl, hp⟩ := o.exists_bodyParts_of_fits hbody
  obtain ⟨algorithm, rfl, -⟩ :=
    Der.Element.exists_of_fits _ (bytes_free _) halgorithm
  have hsignedLength : body.signedBytes.length
      = o.parts.body.signedBytes.length := by
    simp only [BodyParts.signedBytes, List.length_append,
      Bytes.length_ofNat, hbodyLength]
  have hcontentLength : (body.signedBytes ++ algorithm.write 0x30
      ++ o.parts.bits.write 0x03).length = o.parts.content.length := by
    simp only [Parts.content, List.length_append, hsignedLength,
      halgorithmLength]
  have hwrite : der' = longSequence
      ++ Bytes.ofNat 2 (body.signedBytes ++ algorithm.write 0x30
        ++ o.parts.bits.write 0x03).length
      ++ (body.signedBytes ++ algorithm.write 0x30
        ++ o.parts.bits.write 0x03) := by
    rw [hder', hcontentLength]
    simp only [BodyParts.signedBytes, hbodyLength, List.append_assoc]
  refine ⟨⟨body, algorithm, o.parts.bits, o.parts.signature,
    o.parts.bits_eq, hcontentLength ▸ o.parts.size_lt⟩, hwrite, ?_,
    ⟨hp, rfl, o.describes.signature⟩⟩
  rw [o.describes.signed]
  exact hsignedLength

end Outline

/-- The signed bytes stand after the outer header. -/
theorem signed_prefix_of_read (h : Certificate.read der = .ok c) :
    c.signed <+: der.drop 4 := by
  obtain ⟨p, rfl, hp⟩ := exists_parts_of_read h
  have hdrop : p.write.drop 4 = p.content := rfl
  rw [hdrop, hp.signed, Parts.content, List.append_assoc]
  exact List.prefix_append _ _

/-- The signed bytes are found after the four bytes of the outer header.
-/
theorem signed_getElem? (h : Certificate.read der = .ok c) {i : Nat}
    (hi : i < c.signed.length) : c.signed[i]? = der[4 + i]? := by
  obtain ⟨more, hmore⟩ := signed_prefix_of_read h
  rw [← List.getElem?_drop, ← hmore, List.getElem?_append_left hi]

/-- The content of a body is known from its signed bytes. -/
theorem body_eq_of_signed_eq (h : Certificate.read der = .ok c)
    (h' : Certificate.read der' = .ok c') (hsigned : c.signed = c'.signed) :
    c.toCertificateBody = c'.toCertificateBody := by
  obtain ⟨p, -, hp⟩ := exists_parts_of_read h
  obtain ⟨q, -, hq⟩ := exists_parts_of_read h'
  rw [hp.signed, hq.signed] at hsigned
  have hcontent : p.body.write = q.body.write :=
    congrArg (List.drop 4) hsigned
  have hread : readBody p.body.write = .ok c.toCertificateBody :=
    readBody_eq_ok_iff.2 ⟨p.body, rfl, hp.body⟩
  have hread' : readBody p.body.write = .ok c'.toCertificateBody :=
    readBody_eq_ok_iff.2 ⟨q.body, hcontent, hq.body⟩
  rw [hread] at hread'
  exact Except.ok.inj hread'

/-- Serial number, names, period and key come from the signed bytes
alone: certificates with the same signed bytes agree in them. And of a
certificate the contents of the two algorithms, the key info in front of
the key, the names after the SET that holds their first common name, and
the extensions may be overwritten with as many other bytes, all at once:
it is still a certificate, with the same serial number, names, period,
key and signature. Its signed bytes, which follow the four bytes of the
outer header, are as many and the same except where some of them were
overwritten. -/
theorem read_overwritten :
    (∀ (der der' : Bytes) (c c' : Certificate),
      Certificate.read der = .ok c → Certificate.read der' = .ok c' →
        c.signed = c'.signed →
          c.toCertificateBody = c'.toCertificateBody)
      ∧ ∀ (der : Bytes) (c : Certificate), Certificate.read der = .ok c →
        Nonempty (Outline der c)
        ∧ ∀ o : Outline der c, o.stencil.bytes = der
          ∧ ∀ der', o.stencil.Fits der' →
            ∃ c', Certificate.read der' = .ok c'
              ∧ c'.toCertificateBody = c.toCertificateBody
              ∧ c'.signature = c.signature
              ∧ c'.signed.length = c.signed.length
              ∧ ∀ i, der'[4 + i]? = der[4 + i]? →
                c'.signed[i]? = c.signed[i]? := by
  refine ⟨fun der der' c c' => body_eq_of_signed_eq,
    fun der c hread => ⟨exists_outline hread, fun o => ⟨o.bytes_stencil,
      fun der' hfits => ?_⟩⟩⟩
  obtain ⟨p, rfl, hlength, hp⟩ := o.exists_parts_of_fits hfits
  have hread' := read_write hp
  refine ⟨_, hread', rfl, rfl, hlength, fun i hsame => ?_⟩
  by_cases hi : i < c.signed.length
  · have hi' : i < p.body.signedBytes.length := by omega
    rw [signed_getElem? hread hi, ← hsame]
    exact signed_getElem? hread' hi'
  · have hi' : ¬i < p.body.signedBytes.length := by omega
    rw [List.getElem?_eq_none (Nat.not_lt.1 hi)]
    exact List.getElem?_eq_none (Nat.not_lt.1 hi')

end Certificate

namespace SmallChain

open Certificate

/-- A certificate with something in three of the places that are not
looked into. -/
def roomyParts (fill : UInt8) : Parts :=
  { (profile 0x69 0x6f 3).parts with
    body := { (profile 0x69 0x6f 3).bodyParts with
      algorithm := ⟨[fill], by show 1 < 128; decide⟩
      extensions := [fill, fill] }
    algorithm := ⟨.byte, [fill], by show 1 < 128; decide⟩
    size_lt := by
      show 181 < 2 ^ 16
      decide }

def roomy (fill : UInt8) : Certificate :=
  { (profile 0x69 0x6f 3).certificate with
    signed := (roomyParts fill).body.signedBytes }

/-- What is filled in does not matter for what is described. -/
theorem describes_roomyParts (fill : UInt8) :
    (roomyParts fill).Describes (roomy fill) := by
  obtain ⟨hserial, hissuer, hbefore, hafter, hsubject, hkey, hform⟩ :=
    (profile 0x69 0x6f 3).describes_bodyParts
  exact ⟨⟨hserial, hissuer, hbefore, hafter, hsubject, hkey, hform⟩,
    rfl, rfl⟩

/-- A name of nothing else is cut at its end. -/
def plainCut (text : Bytes) (h : text.length ≤ 100) :
    CommonName.Cut (CommonName.plain text) where
  front := CommonName.plain text
  rest := []
  name_eq := (List.append_nil _).symm
  upTo := ⟨text, CommonName.upTo_plain h⟩

def roomyOutline (fill : UInt8) :
    Outline (roomyParts fill).write (roomy fill) where
  parts := roomyParts fill
  der_eq := rfl
  describes := describes_roomyParts fill
  issuer := plainCut _ (profile 0x69 0x6f 3).issuer_fits
  subject := plainCut _ (profile 0x69 0x6f 3).subject_fits
  keyInfoFront := []
  keyInfo_eq := rfl

end SmallChain

namespace Certificate

open SmallChain

/-- Filled with zeros and filled with ones, a certificate says the
same. -/
theorem read_overwritten_roomy :
    ∃ c, Certificate.read (roomyParts 1).write = .ok c
      ∧ c.toCertificateBody = (roomy 0).toCertificateBody
      ∧ c.signature = (roomy 0).signature := by
  have hread : Certificate.read (roomyParts 0).write = .ok (roomy 0) :=
    read_write (describes_roomyParts 0)
  have hfits : (roomyOutline 0).stencil.Fits (roomyParts 1).write := by
    decide +kernel
  obtain ⟨c, hc, hbody, hsignature, -⟩ :=
    ((read_overwritten.2 _ _ hread).2 (roomyOutline 0)).2 _ hfits
  exact ⟨c, hc, hbody, hsignature⟩

end Certificate

end Attestation
