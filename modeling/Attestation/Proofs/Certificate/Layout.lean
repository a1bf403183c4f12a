/-
The layout of a certificate, as data. `Parts` holds everything that may
vary from one accepted certificate to another (contents, and the forms
in which their lengths are written), and `Parts.write` puts the fixed
bytes around it. `Parts.Describes` says which certificate the parts
stand for.

`read_eq_ok_iff_written`, the main statement, is exactness in both
directions: reading succeeds on what parts write, when their names,
times and key are good, and on nothing else, and it returns the
certificate that they describe. The statement is about bytes that nobody
vouches for, so it says as much about what is refused as about what is
read: bytes that no parts write are no certificate.

The proof follows the reading. Each kind of element has an equivalence
with a passage, and the body and the whole are these put in a row, read
from left to right for what a successful reading has found and from
right to left for what it accepts. Layout and meaning are kept apart on
the way: that the bytes are laid out so is one thing, and that the names
can be found in them, the times are times and the key is not compressed
is another, which only `Describes` talks about.

Two lengths are written twice, those of the whole and of its body, and
in a two-byte form that cannot hold every number. `Parts.size_lt` is the
one size that has to be given; that the body then fits too follows
(`Parts.body_lt`).

Everything else that is proved about certificates starts here: names,
signed bytes and overwritten stretches are found in the parts, not in
the reader.
-/
import Attestation.Certificate.Reading
import Attestation.Proofs.Bytes.DerElement

namespace Attestation

namespace Certificate

open Reader

-- ===================================================== written parts

/-- The variable parts of a body. -/
structure BodyParts where
  serial : Der.ShortElement
  algorithm : Der.ShortElement
  issuer : Der.Element
  notBefore : UtcTime
  notAfter : UtcTime
  subject : Der.Element
  keyInfo : Der.Element
  /-- Whatever follows the key info. -/
  extensions : Bytes

namespace BodyParts

/-- The validity period. -/
def validityBytes (p : BodyParts) : Bytes :=
  validityHeader ++ p.notBefore.toList ++ utcTimeHeader
    ++ p.notAfter.toList

/-- The content of the body up to the end of the key info. -/
def checkedBytes (p : BodyParts) : Bytes :=
  versionThree ++ p.serial.write 0x02 ++ p.algorithm.write 0x30
    ++ p.issuer.write 0x30 ++ p.validityBytes ++ p.subject.write 0x30
    ++ p.keyInfo.write 0x30

/-- The content of the body. -/
def write (p : BodyParts) : Bytes :=
  p.checkedBytes ++ p.extensions

/-- The body with its header: the bytes that are signed. -/
def signedBytes (p : BodyParts) : Bytes :=
  longSequence ++ Bytes.ofNat 2 p.write.length ++ p.write

/-- The body that the parts stand for. The names must be there, the
times must exist, and the key info must end in an uncompressed key. -/
structure Describes (p : BodyParts) (b : CertificateBody) : Prop where
  serialHash : b.serialHash = sha256 p.serial.content
  issuerHash : ∃ name, CommonName.find p.issuer.content = .ok name
    ∧ b.issuerHash = sha256 name
  notBefore : UtcTime.seconds p.notBefore = .ok b.validity.notBefore
  notAfter : UtcTime.seconds p.notAfter = .ok b.validity.notAfter
  subjectHash : ∃ name, CommonName.find p.subject.content = .ok name
    ∧ b.subjectHash = sha256 name
  publicKey : ∃ before, p.keyInfo.content = before ++ b.publicKey.toList
  uncompressed : b.publicKey.form = 0x04

end BodyParts

/-- The variable parts of a certificate. The content of the BIT STRING
says that no bits are unused and then gives the signature; the whole is
short enough for a two-byte length. -/
structure Parts where
  body : BodyParts
  algorithm : Der.Element
  bits : Der.Element
  signature : Bytes
  bits_eq : bits.content = 0 :: signature
  size_lt : (body.signedBytes ++ algorithm.write 0x30
    ++ bits.write 0x03).length < 65536

namespace Parts

/-- The content of the certificate. -/
def content (p : Parts) : Bytes :=
  p.body.signedBytes ++ p.algorithm.write 0x30 ++ p.bits.write 0x03

/-- The certificate. -/
def write (p : Parts) : Bytes :=
  longSequence ++ Bytes.ofNat 2 p.content.length ++ p.content

/-- The certificate that the parts stand for. -/
structure Describes (p : Parts) (c : Certificate) : Prop where
  body : p.body.Describes c.toCertificateBody
  signed : c.signed = p.body.signedBytes
  signature : c.signature = p.signature

end Parts

-- ==================================================== single elements

variable {r r' : Reader} {missing length cut : CertificateFault}

/-- An element is read where one with this content is written, in
whichever form its length is. -/
theorem element_iff_passes {tag : UInt8} {content : Bytes} :
    element tag missing length cut r = .ok (content, r')
      ↔ ∃ e : Der.Element, e.content = content
          ∧ r.Passes (e.write tag) r' := by
  unfold element
  constructor
  · intro h
    obtain ⟨r₁, htag, h⟩ := bind_eq_ok_iff.1 h
    obtain ⟨⟨n, r₂⟩, hlength, h⟩ := bind_eq_ok_iff.1 h
    have htag := demand_pass?_iff.1 htag
    obtain ⟨form, hn, hform⟩ := demand_length?_iff.1 hlength
    obtain ⟨hlen, hcontent⟩ := demand_take?_iff.1 h
    subst hlen
    exact ⟨⟨form, content, hn⟩, rfl, (htag.trans hform).trans hcontent⟩
  · intro h
    obtain ⟨e, he, h⟩ := h
    subst he
    obtain ⟨r₂, h, hcontent⟩ := passes_append_iff.1 h
    obtain ⟨r₁, htag, hform⟩ := passes_cons_iff.1 h
    refine bind_eq_ok_iff.2 ⟨r₁, demand_pass?_iff.2 htag, ?_⟩
    refine bind_eq_ok_iff.2 ⟨(e.content.length, r₂), ?_, ?_⟩
    · exact demand_length?_iff.2 ⟨e.form, e.fits, hform⟩
    · exact demand_take?_iff.2 ⟨rfl, hcontent⟩

/-- A short element is read where one with this content is written. -/
theorem shortElement_iff_passes {tag : UInt8} {content : Bytes} :
    shortElement tag missing length cut r = .ok (content, r')
      ↔ ∃ e : Der.ShortElement, e.content = content
          ∧ r.Passes (e.write tag) r' := by
  unfold shortElement
  constructor
  · intro h
    obtain ⟨r₁, htag, h⟩ := bind_eq_ok_iff.1 h
    obtain ⟨⟨n, r₂⟩, hlength, h⟩ := bind_eq_ok_iff.1 h
    have htag := demand_pass?_iff.1 htag
    obtain ⟨hn, hbyte⟩ := demand_shortLength?_iff.1 hlength
    obtain ⟨hlen, hcontent⟩ := demand_take?_iff.1 h
    subst hlen
    exact ⟨⟨content, hn⟩, rfl, (htag.trans hbyte).trans hcontent⟩
  · intro h
    obtain ⟨e, he, h⟩ := h
    subst he
    obtain ⟨r₁, htag, h⟩ := passes_cons_iff.1 h
    obtain ⟨r₂, hbyte, hcontent⟩ := passes_cons_iff.1 h
    refine bind_eq_ok_iff.2 ⟨r₁, demand_pass?_iff.2 htag, ?_⟩
    refine bind_eq_ok_iff.2 ⟨(e.content.length, r₂), ?_, ?_⟩
    · exact demand_shortLength?_iff.2 ⟨e.fits, hbyte⟩
    · exact demand_take?_iff.2 ⟨rfl, hcontent⟩

/-- A SEQUENCE is an element with its tag. -/
theorem sequence_iff_passes {content : Bytes} :
    sequence missing r = .ok (content, r')
      ↔ ∃ e : Der.Element, e.content = content
          ∧ r.Passes (e.write 0x30) r' :=
  element_iff_passes

/-- Both times are framed before either of them is looked at. -/
theorem validityPeriod_iff_passes {validity : Validity} :
    validityPeriod r = .ok (validity, r')
      ↔ ∃ notBefore notAfter : UtcTime,
          r.Passes (validityHeader ++ notBefore.toList ++ utcTimeHeader
            ++ notAfter.toList) r'
          ∧ notBefore.seconds = .ok validity.notBefore
          ∧ notAfter.seconds = .ok validity.notAfter := by
  unfold validityPeriod
  constructor
  · intro h
    obtain ⟨r₁, h₁, h⟩ := bind_eq_ok_iff.1 h
    obtain ⟨⟨notBefore, r₂⟩, h₂, h⟩ := bind_eq_ok_iff.1 h
    obtain ⟨r₃, h₃, h⟩ := bind_eq_ok_iff.1 h
    obtain ⟨⟨notAfter, r₄⟩, h₄, h⟩ := bind_eq_ok_iff.1 h
    obtain ⟨first, hfirst, h⟩ := bind_eq_ok_iff.1 h
    obtain ⟨last, hlast, h⟩ := bind_eq_ok_iff.1 h
    cases h
    refine ⟨notBefore, notAfter, ?_, hfirst, hlast⟩
    have hheader := demand_pass?_iff.1 h₁
    have hbetween := demand_pass?_iff.1 h₃
    exact ((hheader.trans (demand_fixed?_iff.1 h₂)).trans hbetween).trans
      (demand_fixed?_iff.1 h₄)
  · intro h
    obtain ⟨notBefore, notAfter, h, hfirst, hlast⟩ := h
    obtain ⟨r₃, h, h₄⟩ := passes_append_iff.1 h
    obtain ⟨r₂, h, h₃⟩ := passes_append_iff.1 h
    obtain ⟨r₁, h₁, h₂⟩ := passes_append_iff.1 h
    refine bind_eq_ok_iff.2 ⟨r₁, demand_pass?_iff.2 h₁, ?_⟩
    refine bind_eq_ok_iff.2 ⟨(notBefore, r₂), demand_fixed?_iff.2 h₂, ?_⟩
    refine bind_eq_ok_iff.2 ⟨r₃, demand_pass?_iff.2 h₃, ?_⟩
    refine bind_eq_ok_iff.2 ⟨(notAfter, r'), demand_fixed?_iff.2 h₄, ?_⟩
    refine bind_eq_ok_iff.2 ⟨_, hfirst, ?_⟩
    exact bind_eq_ok_iff.2 ⟨_, hlast, rfl⟩

/-- The key is the last bytes of a key info, whatever is in front of
them, and it has to be in the uncompressed form. -/
theorem keyAtEnd_eq_ok_iff {info : Bytes} {key : PublicKey} :
    keyAtEnd info = .ok key
      ↔ (∃ before, info = before ++ key.toList) ∧ key.form = 0x04 := by
  unfold keyAtEnd
  constructor
  · intro h
    obtain ⟨key', hkey, h⟩ := bind_eq_ok_iff.1 h
    obtain ⟨_, hfirst, h⟩ := bind_eq_ok_iff.1 h
    cases h
    have hkey := demand_eq_ok_iff.1 hkey
    split at hkey
    case isFalse => cases hkey
    case isTrue =>
      have hend := FixedBytes.ofList?_eq_some_iff.1 hkey
      refine ⟨⟨info.take (info.length - 97), ?_⟩,
        require_eq_ok_iff.1 hfirst⟩
      rw [← hend, List.take_append_drop]
  · intro h
    obtain ⟨⟨before, hinfo⟩, hfirst⟩ := h
    have hlen : info.length - 97 = before.length := by
      rw [hinfo, List.length_append, key.length_toList]
      omega
    have hdrop : info.drop (info.length - 97) = key.toList := by
      rw [hlen, hinfo, List.drop_left]
    have hlong : 97 ≤ info.length := by
      rw [hinfo, List.length_append, key.length_toList]
      omega
    refine bind_eq_ok_iff.2 ⟨key, ?_, ?_⟩
    · rw [if_pos hlong, hdrop, FixedBytes.ofList?_toList]
      rfl
    · exact bind_eq_ok_iff.2 ⟨(), require_eq_ok_iff.2 hfirst, rfl⟩

/-- A signature uses all bits, which a first byte of zero says. -/
theorem wholeBits_eq_ok_iff {content signature : Bytes} :
    wholeBits content = .ok signature ↔ content = 0 :: signature := by
  unfold wholeBits
  constructor
  · intro h
    split at h
    · cases h
      rfl
    · cases h
  · intro h
    subst h
    rfl

-- =========================================================== the body

/-- The unread bytes of the body after the key info are of no
concern. -/
theorem readBody_eq_ok_iff {content : Bytes} {b : CertificateBody} :
    readBody content = .ok b
      ↔ ∃ p : BodyParts, content = p.write ∧ p.Describes b := by
  unfold readBody
  constructor
  · intro h
    obtain ⟨r₁, e₁, h⟩ := bind_eq_ok_iff.1 h
    obtain ⟨⟨_, r₂⟩, e₂, h⟩ := bind_eq_ok_iff.1 h
    obtain ⟨⟨_, r₃⟩, e₃, h⟩ := bind_eq_ok_iff.1 h
    obtain ⟨⟨_, r₄⟩, e₄, h⟩ := bind_eq_ok_iff.1 h
    obtain ⟨issuerName, hissuerName, h⟩ := bind_eq_ok_iff.1 h
    obtain ⟨⟨validity, r₅⟩, e₅, h⟩ := bind_eq_ok_iff.1 h
    obtain ⟨⟨_, r₆⟩, e₆, h⟩ := bind_eq_ok_iff.1 h
    obtain ⟨subjectName, hsubjectName, h⟩ := bind_eq_ok_iff.1 h
    obtain ⟨⟨_, r₇⟩, e₇, h⟩ := bind_eq_ok_iff.1 h
    obtain ⟨key, hkey, h⟩ := bind_eq_ok_iff.1 h
    cases h
    have hversion := demand_pass?_iff.1 e₁
    obtain ⟨serial, rfl, hserial⟩ := shortElement_iff_passes.1 e₂
    obtain ⟨algorithm, rfl, halgorithm⟩ := shortElement_iff_passes.1 e₃
    obtain ⟨issuer, rfl, hissuer⟩ := sequence_iff_passes.1 e₄
    obtain ⟨notBefore, notAfter, hvalidity, hfirst, hlast⟩ :=
      validityPeriod_iff_passes.1 e₅
    obtain ⟨subject, rfl, hsubject⟩ := sequence_iff_passes.1 e₆
    obtain ⟨info, rfl, hinfo⟩ := sequence_iff_passes.1 e₇
    obtain ⟨hend, huncompressed⟩ := keyAtEnd_eq_ok_iff.1 hkey
    -- what the key info is followed by is kept, but not looked at
    refine ⟨⟨serial, algorithm, issuer, notBefore, notAfter, subject, info,
      r₇.rest⟩, ?_, ?_⟩
    · have hwhole := (((((hversion.trans hserial).trans halgorithm).trans
        hissuer).trans hvalidity).trans hsubject).trans hinfo
      exact hwhole.eq_append
    · exact ⟨rfl, ⟨issuerName, hissuerName, rfl⟩, hfirst, hlast,
        ⟨subjectName, hsubjectName, rfl⟩, hend, huncompressed⟩
  · intro h
    obtain ⟨p, hcontent, hp⟩ := h
    -- the layout is cut from the end, and gives the reads from the start
    obtain ⟨issuerName, hissuerName, hissuerHash⟩ := hp.issuerHash
    obtain ⟨subjectName, hsubjectName, hsubjectHash⟩ := hp.subjectHash
    have hstart : (ofBytes content).rest = p.checkedBytes ++ p.extensions :=
      hcontent
    obtain ⟨r₇, h, -⟩ := exists_passes hstart
    obtain ⟨r₆, h, hinfo⟩ := passes_append_iff.1 h
    obtain ⟨r₅, h, hsubject⟩ := passes_append_iff.1 h
    obtain ⟨r₄, h, hvalidity⟩ := passes_append_iff.1 h
    obtain ⟨r₃, h, hissuer⟩ := passes_append_iff.1 h
    obtain ⟨r₂, h, halgorithm⟩ := passes_append_iff.1 h
    obtain ⟨r₁, hversion, hserial⟩ := passes_append_iff.1 h
    refine bind_eq_ok_iff.2 ⟨r₁, demand_pass?_iff.2 hversion, ?_⟩
    refine bind_eq_ok_iff.2 ⟨(p.serial.content, r₂),
      shortElement_iff_passes.2 ⟨p.serial, rfl, hserial⟩, ?_⟩
    refine bind_eq_ok_iff.2 ⟨(p.algorithm.content, r₃),
      shortElement_iff_passes.2 ⟨p.algorithm, rfl, halgorithm⟩, ?_⟩
    refine bind_eq_ok_iff.2 ⟨(p.issuer.content, r₄),
      sequence_iff_passes.2 ⟨p.issuer, rfl, hissuer⟩, ?_⟩
    refine bind_eq_ok_iff.2 ⟨issuerName, hissuerName, ?_⟩
    refine bind_eq_ok_iff.2 ⟨(b.validity, r₅),
      validityPeriod_iff_passes.2 ⟨p.notBefore, p.notAfter, hvalidity,
        hp.notBefore, hp.notAfter⟩, ?_⟩
    refine bind_eq_ok_iff.2 ⟨(p.subject.content, r₆),
      sequence_iff_passes.2 ⟨p.subject, rfl, hsubject⟩, ?_⟩
    refine bind_eq_ok_iff.2 ⟨subjectName, hsubjectName, ?_⟩
    refine bind_eq_ok_iff.2 ⟨(p.keyInfo.content, r₇),
      sequence_iff_passes.2 ⟨p.keyInfo, rfl, hinfo⟩, ?_⟩
    refine bind_eq_ok_iff.2 ⟨b.publicKey,
      keyAtEnd_eq_ok_iff.2 ⟨hp.publicKey, hp.uncompressed⟩, ?_⟩
    rw [← hp.serialHash, ← hissuerHash, ← hsubjectHash]
    rfl

-- ========================================================== the whole

/-- The lengths in the two outer headers hold, as the whole is short
enough for the outer one. -/
theorem Parts.body_lt (p : Parts) : p.body.write.length < 256 ^ 2 := by
  have hsize := p.size_lt
  simp only [List.length_append, BodyParts.signedBytes] at hsize
  omega

/-- Whatever is read as a certificate was written from parts. -/
theorem exists_parts_of_read {der : Bytes} {c : Certificate}
    (h : Certificate.read der = .ok c) :
    ∃ p : Parts, der = p.write ∧ p.Describes c := by
  unfold Certificate.read at h
  obtain ⟨r₁, e₁, h⟩ := bind_eq_ok_iff.1 h
  obtain ⟨⟨length, start⟩, e₂, h⟩ := bind_eq_ok_iff.1 h
  obtain ⟨_, e₃, h⟩ := bind_eq_ok_iff.1 h
  obtain ⟨r₂, e₄, h⟩ := bind_eq_ok_iff.1 h
  obtain ⟨⟨bodyLength, r₃⟩, e₅, h⟩ := bind_eq_ok_iff.1 h
  obtain ⟨⟨content, stop⟩, e₆, h⟩ := bind_eq_ok_iff.1 h
  obtain ⟨b, e₇, h⟩ := bind_eq_ok_iff.1 h
  obtain ⟨⟨_, r₄⟩, e₈, h⟩ := bind_eq_ok_iff.1 h
  obtain ⟨⟨_, r₅⟩, e₉, h⟩ := bind_eq_ok_iff.1 h
  obtain ⟨signature, hsignature, h⟩ := bind_eq_ok_iff.1 h
  obtain ⟨_, hend, h⟩ := bind_eq_ok_iff.1 h
  cases h
  have hheader := demand_pass?_iff.1 e₁
  obtain ⟨hlt, hlength⟩ := demand_nat?_iff.1 e₂
  have hbodyHeader := demand_pass?_iff.1 e₄
  obtain ⟨-, hbodyLength⟩ := demand_nat?_iff.1 e₅
  obtain ⟨hlen, hcontent⟩ := demand_take?_iff.1 e₆
  obtain ⟨p, rfl, hp⟩ := readBody_eq_ok_iff.1 e₇
  obtain ⟨algorithm, rfl, halgorithm⟩ := element_iff_passes.1 e₈
  obtain ⟨bits, rfl, hbits⟩ := element_iff_passes.1 e₉
  have hsignature := wholeBits_eq_ok_iff.1 hsignature
  have hend := isEmpty_iff.1 (require_eq_ok_iff.1 hend)
  have hsigned : start.Passes p.signedBytes stop := by
    rw [← hlen] at hbodyLength
    exact (hbodyHeader.trans hbodyLength).trans hcontent
  have hstart : start.rest = p.signedBytes ++ algorithm.write 0x30
      ++ bits.write 0x03 := by
    have hwhole := (hsigned.trans halgorithm).trans hbits
    rw [hwhole.rest_eq, hend, List.append_nil]
  have hremaining : length = (p.signedBytes ++ algorithm.write 0x30
      ++ bits.write 0x03).length := by
    rw [← hstart]
    exact require_eq_ok_iff.1 e₃
  subst hremaining
  refine ⟨⟨p, algorithm, bits, signature, hsignature, hlt⟩, ?_,
    ⟨hp, hsigned.upTo_eq, rfl⟩⟩
  rw [(hheader.trans hlength).eq_append, hstart]
  rfl

/-- Whatever parts write is read, if they stand for a certificate. -/
theorem read_write {p : Parts} {c : Certificate} (hp : p.Describes c) :
    Certificate.read p.write = .ok c := by
  unfold Certificate.read
  have hstart : (ofBytes p.write).rest
      = longSequence ++ Bytes.ofNat 2 p.content.length ++ p.content :=
    rfl
  obtain ⟨start, h, hrest⟩ := exists_passes hstart
  obtain ⟨r₁, hheader, hlength⟩ := passes_append_iff.1 h
  have hcontent : start.rest = p.content ++ [] := by
    rw [hrest, List.append_nil]
  obtain ⟨r₅, h, hend⟩ := exists_passes hcontent
  obtain ⟨r₄, h, hbits⟩ := passes_append_iff.1 h
  obtain ⟨stop, hsigned, halgorithm⟩ := passes_append_iff.1 h
  obtain ⟨r₃, h, hbody⟩ := passes_append_iff.1 hsigned
  obtain ⟨r₂, hbodyHeader, hbodyLength⟩ := passes_append_iff.1 h
  refine bind_eq_ok_iff.2 ⟨r₁, demand_pass?_iff.2 hheader, ?_⟩
  refine bind_eq_ok_iff.2 ⟨(p.content.length, start),
    demand_nat?_iff.2 ⟨p.size_lt, hlength⟩, ?_⟩
  refine bind_eq_ok_iff.2 ⟨(), require_eq_ok_iff.2 ?_, ?_⟩
  · rw [remaining, hrest]
  refine bind_eq_ok_iff.2 ⟨r₂, demand_pass?_iff.2 hbodyHeader, ?_⟩
  refine bind_eq_ok_iff.2 ⟨(p.body.write.length, r₃),
    demand_nat?_iff.2 ⟨p.body_lt, hbodyLength⟩, ?_⟩
  refine bind_eq_ok_iff.2 ⟨(p.body.write, stop),
    demand_take?_iff.2 ⟨rfl, hbody⟩, ?_⟩
  refine bind_eq_ok_iff.2 ⟨c.toCertificateBody,
    readBody_eq_ok_iff.2 ⟨p.body, rfl, hp.body⟩, ?_⟩
  refine bind_eq_ok_iff.2 ⟨(p.algorithm.content, r₄),
    element_iff_passes.2 ⟨p.algorithm, rfl, halgorithm⟩, ?_⟩
  refine bind_eq_ok_iff.2 ⟨(p.bits.content, r₅),
    element_iff_passes.2 ⟨p.bits, rfl, hbits⟩, ?_⟩
  refine bind_eq_ok_iff.2 ⟨p.signature,
    wholeBits_eq_ok_iff.2 p.bits_eq, ?_⟩
  refine bind_eq_ok_iff.2 ⟨(), require_eq_ok_iff.2 ?_, ?_⟩
  · exact isEmpty_iff.2 hend
  rw [hsigned.upTo_eq, ← hp.signed, ← hp.signature]
  rfl

/-- A certificate is read exactly from what its parts write: the two
lengths in the outer headers must be the true ones, each inner length
may be in any of its forms, nothing may be left over, and names, times
and key must be good. -/
theorem read_eq_ok_iff_written (der : Bytes) (c : Certificate) :
    Certificate.read der = .ok c
      ↔ ∃ p : Parts, der = p.write ∧ p.Describes c := by
  constructor
  · exact exists_parts_of_read
  · intro h
    obtain ⟨p, hder, hp⟩ := h
    rw [hder]
    exact read_write hp

end Certificate

end Attestation
