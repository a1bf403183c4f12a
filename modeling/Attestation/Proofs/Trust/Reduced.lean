/-
What the reduced mode is worth. Without full mode no signature is
checked, and neither the first entry of the bundle nor the enclave's own
certificate is looked at. `ReducedTrust` says what is left: the framing
of the whole bundle, and for the entries after the first the names and
the periods of validity. `trace_chain_linkage_eq_ok_iff` says that a
walk succeeds exactly then, by every judge and without asking it.

A walk passes names along as it goes, and so does `Linked`, which
follows it. `linked_iff` takes the two concerns apart: who names whom is
a matter of neighbours in the row, and validity one of each certificate
by itself. In this form there is no running issuer any more, and the
statement can be checked one pair of neighbours at a time.

The key that comes out is the one of the last certificate in the row, or
the anchor's if there is none, so a bundle of no entry or of one leads
to the anchor's key (`key_after`). It is the length of the written
bundle that is consumed, whatever stands behind it.
-/
import Attestation.Proofs.Trust.Chain
import Mathlib.Algebra.GroupWithZero.Nat
import Mathlib.Data.List.Chain

namespace Attestation

open Reader Inquiry

-- ============================================ rows, without a running issuer

/-- The first certificate of a row names an issuer, and every other one
names the one before it. -/
structure Issuer.Names (issuer : Issuer) (certs : List Certificate) :
    Prop where
  first : ∀ c ∈ certs.head?, c.issuerHash = issuer.identity
  next : certs.IsChain fun c next => next.issuerHash = c.subjectHash

theorem Issuer.names_nil (issuer : Issuer) : issuer.Names [] where
  first := fun c h => by cases h
  next := .nil

/-- The subject of a certificate starts the row after it. -/
theorem Issuer.names_cons_iff {issuer : Issuer} {c : Certificate}
    {later : List Certificate} :
    issuer.Names (c :: later)
      ↔ c.issuerHash = issuer.identity
        ∧ Issuer.Names ⟨c.subjectHash, c.publicKey⟩ later := by
  constructor
  · intro h
    have hnext := List.isChain_cons.1 h.next
    exact ⟨h.first c rfl, hnext.1, hnext.2⟩
  · intro h
    obtain ⟨hname, hlater⟩ := h
    refine ⟨?_, List.isChain_cons.2 ⟨hlater.first, hlater.next⟩⟩
    intro d hd
    cases hd
    exact hname

/-- The key at the end of a row is that of the last certificate, or the
issuer's own when the row is empty. -/
theorem Issuer.key_after (issuer : Issuer) (certs : List Certificate) :
    (issuer.after certs).key
      = (certs.getLast?.map fun c => c.publicKey).getD issuer.key := by
  rcases List.eq_nil_or_concat' certs with hnil | ⟨inner, last, hcerts⟩
  · rw [hnil]
    rfl
  · rw [hcerts, Issuer.after_concat]
    simp [Certificate.subject]

/-- The length of a bundle: its header, and three bytes before each
entry. -/
theorem Bundle.length_write (b : Bundle) :
    b.write.length = 1 + (b.entries.map fun der => 3 + der.length).sum := by
  have hframe (der : Bytes) : (frame der).length = 3 + der.length := by
    simp [frame]
    omega
  simp [write, header, List.length_flatMap, hframe]
  omega

namespace Walk

/-- The walk with another mode. -/
def inMode (w : Walk) (mode : TrustMode) : Walk :=
  { w with mode := mode }

variable {w : Walk} {issuer : Issuer} {certs : List Certificate}

@[simp] theorem inMode_mode (w : Walk) (mode : TrustMode) :
    (w.inMode mode).mode = mode :=
  rfl

@[simp] theorem inMode_anchor (w : Walk) (mode : TrustMode) :
    (w.inMode mode).anchor = w.anchor :=
  rfl

@[simp] theorem inMode_now (w : Walk) (mode : TrustMode) :
    (w.inMode mode).now = w.now :=
  rfl

@[simp] theorem inMode_fuzzPercent (w : Walk) (mode : TrustMode) :
    (w.inMode mode).fuzzPercent = w.fuzzPercent :=
  rfl

/-- A row is linked when its names are and each certificate is valid by
itself. -/
theorem linked_iff :
    w.Linked issuer certs
      ↔ issuer.Names certs
        ∧ ∀ c ∈ certs, c.validity.Covers w.fuzzPercent w.now := by
  induction certs generalizing issuer with
  | nil =>
    constructor
    · intro _
      exact ⟨issuer.names_nil, List.forall_mem_nil _⟩
    · intro _
      trivial
  | cons c later ih =>
    rw [Linked, ih, Issuer.names_cons_iff, List.forall_mem_cons]
    tauto

/-- Names and validity are the same in both modes. -/
theorem linked_inMode {mode : TrustMode} :
    (w.inMode mode).Linked issuer certs ↔ w.Linked issuer certs := by
  rw [linked_iff, linked_iff, inMode_now, inMode_fuzzPercent]

-- ====================================================== reduced trust

/-- A bundle deserves reduced trust: it is well framed, and its entries
after the first are certificates that are valid and name one another,
the first of them the trusted root. The witnesses are the bundle at the
beginning of the bytes, the certificates, the key that the document must
be signed by, and the number of bytes that the bundle takes up. -/
structure ReducedTrust (w : Walk) (cabundle : Bytes) (b : Bundle)
    (certs : List Certificate) (key : PublicKey) (consumed : Nat) :
    Prop where
  /-- Whatever follows the bundle is of no concern. -/
  framed : ∃ more, cabundle = b.write ++ more
  read : Certificate.ReadAs b.entries.tail certs
  first : ∀ c ∈ certs.head?, c.issuerHash = w.anchor.identity
  next : certs.IsChain fun c next => next.issuerHash = c.subjectHash
  valid : ∀ c ∈ certs, c.validity.Covers w.fuzzPercent w.now
  consumed_eq :
    consumed = 1 + (b.entries.map fun der => 3 + der.length).sum
  /-- The last certificate's, or the root's if there is none. -/
  key_eq : key
    = (certs.getLast?.map fun c => c.publicKey).getD w.anchor.publicKey

variable {certificate : Bytes} {b : Bundle}

/-- Without full mode neither the first entry nor the enclave's own
certificate has a part in an unbroken chain. -/
theorem unbroken_linkage_iff :
    (w.inMode .identityLinkage).Unbroken certificate b certs
      ↔ Certificate.ReadAs b.entries.tail certs
        ∧ w.anchor.issuer.Names certs
        ∧ ∀ c ∈ certs, c.validity.Covers w.fuzzPercent w.now := by
  constructor
  · intro h
    have hreads := h.reads
    rw [if_neg (by simp), List.append_nil] at hreads
    exact ⟨hreads, linked_iff.1 (linked_inMode.1 h.linked)⟩
  · intro h
    obtain ⟨hreads, hlinked⟩ := h
    refine ⟨?_, ?_, linked_inMode.2 (linked_iff.2 hlinked)⟩
    · intro hfull
      cases hfull
    · rw [if_neg (by simp), List.append_nil]
      exact hreads

/-- Without full mode a walk succeeds, by every judge, exactly on the
bytes that begin with a bundle that deserves reduced trust; nothing is
asked. -/
theorem trace_chain_linkage_eq_ok_iff (w : Walk)
    (certificate cabundle : Bytes) (answer : Nat → Query → Bool)
    (count : Nat) (calls : List Call) (key : PublicKey) (consumed : Nat) :
    ((w.inMode .identityLinkage).chain certificate cabundle).trace answer
        count = (calls, .ok (key, consumed))
      ↔ calls = [] ∧ ∃ b certs,
          w.ReducedTrust cabundle b certs key consumed := by
  rw [trace_eq_iff, chain_ends_ok_iff]
  constructor
  · intro h
    obtain ⟨⟨b, certs, hchain, hframed, hconsumed, hkey, hcalls⟩, -⟩ := h
    obtain ⟨hread, hnames, hvalid⟩ := unbroken_linkage_iff.1 hchain
    rw [Bundle.length_write] at hconsumed
    rw [Issuer.key_after] at hkey
    exact ⟨hcalls, b, certs, hframed, hread, hnames.first, hnames.next,
      hvalid, hconsumed, hkey⟩
  · intro h
    obtain ⟨hcalls, b, certs, h⟩ := h
    have hchain : (w.inMode .identityLinkage).Unbroken certificate b certs :=
      unbroken_linkage_iff.2 ⟨h.read, ⟨h.first, h.next⟩, h.valid⟩
    rw [hcalls]
    refine ⟨⟨b, certs, hchain, h.framed, ?_, ?_, rfl⟩, trivial⟩
    · rw [Bundle.length_write]
      exact h.consumed_eq
    · rw [Issuer.key_after]
      exact h.key_eq

end Walk

end Attestation
