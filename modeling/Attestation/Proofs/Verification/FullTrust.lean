/-
What a success in full mode is worth. `FullTrust` says everything that
must hold of a document, from the root's end to the registers, for a
judge that is a function of the question; `run_verify_full_eq_ok_iff`
says that a verification succeeds exactly then.

`FullTrust` is written for a reader who has not seen the verifier. The
document is its bytes around the payload, the payload its fields, the
bundle its entries; the chain is a list of certificates, each of which
names and is signed by the one before it; and the last signature is over
the array that has the payload in it, whose bytes are written out as
well. What a certificate says is the one thing that is taken from the
reader of certificates, which has a layout of its own elsewhere.

Both directions go from one part to the next: the ends of a
verification, then the fields of the payload, then the chain. What is
added here is that the parts fit, and in particular that the question
which the verifier asks piece by piece of its digest is the one about
the digest of the array as a whole (`signedDigest_of_read`).
-/
import Attestation.Proofs.Document.Envelope
import Attestation.Proofs.Document.Payload
import Attestation.Proofs.Verification.Stages

namespace Attestation

open Inquiry

namespace Setup

/-- Trust in a root, with whole chains checked. -/
def full (anchor : Anchor) (fuzzPercent : UInt64) : Setup :=
  ⟨anchor, .full, fuzzPercent⟩

/-- A document deserves full trust under a setup, and states `v`. The
witnesses are its payload, the signature after it, the bundle in the
payload, the certificates of the entries after the first, and the
enclave's own certificate. -/
structure FullTrust (setup : Setup) (now : UInt64) (accepts : AgeRule)
    (acceptsPcrs : PcrRule) (answer : Query → Bool) (document : Bytes)
    (v : Statement) (p : Payload) (signature : RawSignature) (b : Bundle)
    (inner : List Certificate) (own : Certificate) : Prop where
  alive : now < setup.anchor.expiresAt
  /-- The document is an envelope around the payload. -/
  size_lt : p.write.length < 65536
  document_eq : document = [0x84, 0x44, 0xa1, 0x01, 0x38, 0x22, 0xa0, 0x59]
    ++ Bytes.ofNat 2 p.write.length ++ p.write ++ [0x58, 0x60]
    ++ signature.toList
  bundle_eq : p.bundle = b.write
  /-- The first entry, if there is one, is the root. -/
  root : ∀ der, b.entries.head? = some der →
    setup.anchor.OwnCertificate der
  /-- The other entries and the enclave's own certificate are read. -/
  inner_read : Certificate.ReadAs b.entries.tail inner
  own_read : Certificate.read p.certificate = .ok own
  /-- Each names the one before it, the first the root, and is valid. -/
  linked : (setup.walk now).Linked setup.anchor.asIssuer (inner ++ [own])
  /-- Each is signed by the one before it, the first by the root. -/
  signed : ∀ query ∈ setup.anchor.asIssuer.questions (inner ++ [own]),
    answer query = true
  /-- The document is signed by the enclave, over the array around the
  payload. -/
  document_signed : answer (.raw own.publicKey
    (sha384 (Envelope.toBeSigned p.write)) signature) = true
  age_accepted : accepts p.timestamp now = true
  pcrs_accepted : acceptsPcrs p.registers.kept = true
  statement_eq : v = p.statement own.publicKey

variable {w : Walk} {certificate bundle : Bytes} {calls : List Call}
  {key : PublicKey}

/-- In full mode a walk over a whole bundle ends with the key of the
enclave's own certificate. -/
theorem chain_full_ends_ok_iff (hmode : w.mode = .full) :
    (w.chain certificate bundle).Ends calls (.ok (key, bundle.length))
      ↔ ∃ b : Bundle, ∃ inner own, bundle = b.write
          ∧ (∀ der, b.entries.head? = some der →
              w.anchor.OwnCertificate der)
          ∧ Certificate.ReadAs b.entries.tail inner
          ∧ Certificate.read certificate = .ok own
          ∧ w.Linked w.anchor.issuer (inner ++ [own])
          ∧ key = own.publicKey
          ∧ calls = (w.anchor.issuer.questions (inner ++ [own])).map
              fun query => ⟨query, true⟩ := by
  rw [Walk.chain_ends_ok_iff]
  constructor
  · intro h
    obtain ⟨b, certs, hchain, ⟨more, hbundle⟩, hlength, hkey, hcalls⟩ := h
    have hreads := hchain.reads
    rw [if_pos hmode, Certificate.readAs_concat_iff] at hreads
    obtain ⟨inner, own, hcerts, hinner, hown⟩ := hreads
    have hnil : more = [] := by
      rw [hbundle, List.length_append] at hlength
      exact List.length_eq_zero_iff.1 (by omega)
    have hlinked := hchain.linked
    subst hcerts
    rw [hnil, List.append_nil] at hbundle
    rw [Issuer.after_concat] at hkey
    rw [Walk.approvals_full hmode] at hcalls
    exact ⟨b, inner, own, hbundle, hchain.root hmode, hinner, hown,
      hlinked, hkey, hcalls⟩
  · intro h
    obtain ⟨b, inner, own, hbundle, hroot, hinner, hown, hlinked, hkey,
      hcalls⟩ := h
    refine ⟨b, inner ++ [own], ⟨fun _ => hroot, ?_, hlinked⟩,
      ⟨[], ?_⟩, ?_, ?_, ?_⟩
    · rw [if_pos hmode]
      exact Certificate.readAs_concat_iff.2
        ⟨inner, own, rfl, hinner, hown⟩
    · rw [List.append_nil, hbundle]
    · rw [hbundle]
    · rw [Issuer.after_concat, hkey]
      rfl
    · rw [Walk.approvals_full hmode, hcalls]

variable {setup : Setup} {now : UInt64} {accepts : AgeRule}
  {acceptsPcrs : PcrRule} {document : Bytes} {v : Statement}
  {answer : Query → Bool}

/-- What a success means. -/
theorem exists_fullTrust (hmode : setup.mode = .full)
    (hends : (setup.verify now accepts acceptsPcrs document).Ends calls
      (.ok v))
    (hanswers : ∀ call ∈ calls, call.answer = answer call.query) :
    ∃ p signature b inner own,
      FullTrust setup now accepts acceptsPcrs answer document v p signature
        b inner own := by
  obtain ⟨hnow, e, links, he, hs, hcalls, hpcrs⟩ :=
    verify_ends_ok_iff.1 hends
  obtain ⟨hsize, hheader, hdocument⟩ := Envelope.read_eq_ok_iff.1 he
  obtain ⟨p, key, hpayload, hage, hchain, hv⟩ :=
    Statement.read_ends_ok_iff.1 hs
  have hfull : (setup.walk now).mode = .full := hmode
  obtain ⟨b, inner, own, hbundle, hroot, hinner, hown, hlinked, hkey,
    hlinks⟩ := (chain_full_ends_ok_iff hfull).1 hchain
  rw [hkey] at hv
  rw [hpayload] at hsize hheader hdocument
  rw [hcalls, List.forall_mem_append, List.forall_mem_singleton] at hanswers
  obtain ⟨hsigned, hlast⟩ := hanswers
  refine ⟨p, e.signature, b, inner, own, hnow, hsize, hdocument, hbundle,
    hroot, hinner, hown, hlinked, ?_, ?_, hage, ?_, hv⟩
  · intro query hmem
    rw [hlinks] at hsigned
    exact (hsigned _ (List.mem_map_of_mem hmem)).symm
  · rw [hv, Envelope.question, Envelope.signedDigest_of_read he,
      hpayload] at hlast
    exact hlast.symm
  · rw [hv] at hpcrs
    exact hpcrs

/-- What makes a success. -/
theorem ends_of_fullTrust (hmode : setup.mode = .full) {p : Payload}
    {signature : RawSignature} {b : Bundle} {inner : List Certificate}
    {own : Certificate}
    (h : FullTrust setup now accepts acceptsPcrs answer document v p
      signature b inner own) :
    ∃ calls, (setup.verify now accepts acceptsPcrs document).Ends calls
        (.ok v)
      ∧ ∀ call ∈ calls, call.answer = answer call.query := by
  have he : Envelope.read document
      = .ok ⟨Envelope.lengthHeaderOf p.write, p.write, signature⟩ :=
    Envelope.read_eq_ok_iff.2 ⟨h.size_lt, rfl, h.document_eq⟩
  have hfull : (setup.walk now).mode = .full := hmode
  have hchain := (chain_full_ends_ok_iff hfull).2 ⟨b, inner, own,
    h.bundle_eq, h.root, h.inner_read, h.own_read, h.linked, rfl, rfl⟩
  have hs := Statement.read_ends_ok_iff.2
    ⟨p, own.publicKey, rfl, h.age_accepted, hchain, h.statement_eq⟩
  have hpcrs : acceptsPcrs v.pcrs = true := by
    rw [h.statement_eq]
    exact h.pcrs_accepted
  have hkey : v.enclaveKey = own.publicKey := by
    rw [h.statement_eq]
    rfl
  refine ⟨_, verify_ends_ok_iff.2 ⟨h.alive, _, _, he, hs, rfl, hpcrs⟩, ?_⟩
  rw [List.forall_mem_append, List.forall_mem_singleton, hkey,
    Envelope.question, Envelope.signedDigest_of_read he]
  refine ⟨?_, h.document_signed.symm⟩
  intro call hmem
  obtain ⟨query, hquery, hcall⟩ := List.mem_map.1 hmem
  subst hcall
  exact (h.signed query hquery).symm

/-- With whole chains checked, a document is accepted exactly when it
deserves full trust: the root is alive, the document is an envelope
around a payload, the certificates in the payload lead from the root to
the enclave, each link and the document itself are signed, and both
rules accept. -/
theorem run_verify_full_eq_ok_iff (anchor : Anchor) (fuzzPercent : UInt64)
    (now : UInt64) (accepts : AgeRule) (acceptsPcrs : PcrRule)
    (answer : Query → Bool) (document : Bytes) (v : Statement) :
    ((full anchor fuzzPercent).verify now accepts acceptsPcrs
        document).run answer = .ok v
      ↔ ∃ p signature b inner own,
          FullTrust (full anchor fuzzPercent) now accepts acceptsPcrs
            answer document v p signature b inner own := by
  have hmode : (full anchor fuzzPercent).mode = .full := rfl
  rw [run_eq_iff]
  constructor
  · intro h
    obtain ⟨calls, hends, hanswers⟩ := h
    exact exists_fullTrust hmode hends hanswers
  · intro h
    obtain ⟨p, signature, b, inner, own, h⟩ := h
    exact ends_of_fullTrust hmode h

end Setup

end Attestation
