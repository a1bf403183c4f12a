/-
Full mode against the reduced one. A walk in full mode does everything
that the reduced walk does, and more: it looks at the first entry, asks
about every link, and goes one certificate further. So when it succeeds
the reduced walk over the same bytes does too, and stops one certificate
earlier, at the key under which full mode verified the last one.

`Relaxed` relates the two walks, `relaxed_of_full` gives it for every
walk that succeeds in full mode, and `reduced_of_full` carries it to the
payload, whose other fields no mode has a part in. What the two
statements differ in is the key and nothing else, and the key of the
reduced walk is not just any other: it is the one that the last question
in full mode was asked with, so whoever trusts the reduced result trusts
a key that vouches for the full one.

Both walks are compared through what they succeed on, a good chain of
certificates, and not step by step. A chain in full mode is one in the
reduced mode with the enclave's own certificate behind it, so the
relation is a matter of taking the last certificate off a row
(`Linked.of_append`, `Issuer.questions_append`).

The small chain is set up at the end: a root, one certificate between,
and the enclave's own, with a document around them. It is the smallest
in which every part of a walk is used, and the examples of all later
modules are about it.
-/
import Attestation.Proofs.Document.Payload
import Attestation.Proofs.Certificate.Plain
import Attestation.Proofs.Trust.Reduced

namespace Attestation

open Reader Inquiry

-- ==================================================== rows, one step shorter

/-- The questions about a longer row are those about its beginning, and
then those about the rest. -/
theorem Issuer.questions_append (issuer : Issuer)
    (inner more : List Certificate) :
    issuer.questions (inner ++ more)
      = issuer.questions inner ++ (issuer.after inner).questions more := by
  induction inner generalizing issuer with
  | nil => rfl
  | cons c inner ih =>
    rw [List.cons_append, questions, questions, ih, after, List.cons_append]

namespace Walk

variable {w : Walk} {issuer : Issuer} {inner more : List Certificate}
  {certificate cabundle : Bytes} {calls : List Call} {key : PublicKey}
  {consumed : Nat}

/-- The beginning of a linked row is linked. -/
theorem Linked.of_append (h : w.Linked issuer (inner ++ more)) :
    w.Linked issuer inner := by
  induction inner generalizing issuer with
  | nil => trivial
  | cons c inner ih =>
    obtain ⟨hname, hvalid, hlater⟩ := h
    exact ⟨hname, hvalid, ih hlater⟩

-- ======================================================== the two walks

/-- What the walks in the two modes have to do with each other over one
certificate of the enclave and the bytes where a bundle begins. Both
succeed and use equally many bytes. The full walk makes `calls` and
gives the key of the enclave's own certificate; the reduced walk asks
nothing and gives the key that the last of these calls verified that
certificate with. -/
structure Relaxed (w : Walk) (answer : Nat → Query → Bool) (count : Nat)
    (certificate cabundle : Bytes) (calls : List Call)
    (own : Certificate) (key : PublicKey) (consumed : Nat) : Prop where
  full : ((w.inMode .full).chain certificate cabundle).trace answer count
    = (calls, .ok (own.publicKey, consumed))
  reduced :
    ((w.inMode .identityLinkage).chain certificate cabundle).trace answer
      count = ([], .ok (key, consumed))
  own_read : Certificate.read certificate = .ok own
  own_verified : calls.getLast?
    = some ⟨.der key (sha384 own.signed) own.signature, true⟩

/-- A walk that succeeds in full mode succeeds in the reduced one, a
certificate earlier. -/
theorem relaxed_of_full {answer : Nat → Query → Bool} {count : Nat}
    (h : ((w.inMode .full).chain certificate cabundle).trace answer count
      = (calls, .ok (key, consumed))) :
    ∃ own issuerKey, key = own.publicKey
      ∧ w.Relaxed answer count certificate cabundle calls own issuerKey
          consumed := by
  obtain ⟨b, certs, hchain, hframed, hconsumed, hkey, hcalls⟩ :=
    chain_ends_ok_iff.1 (trace_eq_iff.1 h).1
  have hreads := hchain.reads
  rw [inMode_mode, if_pos rfl, Certificate.readAs_concat_iff] at hreads
  obtain ⟨inner, own, hcerts, hinner, hown⟩ := hreads
  subst hcerts
  rw [Issuer.after_concat] at hkey
  -- the row without its last certificate is the reduced walk's
  have hreduced : (w.inMode .identityLinkage).Unbroken certificate b
      inner := by
    refine unbroken_linkage_iff.2 ⟨hinner, linked_iff.1 ?_⟩
    exact linked_inMode.1 hchain.linked.of_append
  have hends : ((w.inMode .identityLinkage).chain certificate
      cabundle).Ends [] (.ok ((w.anchor.issuer.after inner).key,
        consumed)) :=
    chain_ends_ok_iff.2 ⟨b, inner, hreduced, hframed, hconsumed, rfl, rfl⟩
  refine ⟨own, (w.anchor.issuer.after inner).key, hkey, ?_⟩
  constructor
  case full => rw [h, hkey]; rfl
  case reduced => exact trace_eq_iff.2 ⟨hends, trivial⟩
  case own_read => exact hown
  case own_verified =>
    rw [hcalls, approvals_full rfl, Issuer.questions_append,
      List.map_append]
    exact List.getLast?_concat

end Walk

-- ========================================================== the payload

namespace Statement

/-- Full mode is never laxer. Whatever a walk accepts with whole chains
checked, it accepts in the reduced mode, using as many bytes and with
the key that the last question was about, which is the one that verified
the enclave's own certificate; and whatever payload is read with whole
chains checked is read in the reduced mode, with nothing else in the
statement than that key for the enclave's. -/
theorem reduced_of_full (w : Walk) (accepts : AgeRule)
    (answer : Nat → Query → Bool) (count : Nat) :
    (∀ certificate cabundle calls key consumed,
      ((w.inMode .full).chain certificate cabundle).trace answer count
          = (calls, .ok (key, consumed)) →
        ∃ own issuerKey, key = own.publicKey
          ∧ w.Relaxed answer count certificate cabundle calls own issuerKey
              consumed)
      ∧ ∀ payload calls s,
        (read (w.inMode .full) accepts payload).trace answer count
            = (calls, .ok s) →
          ∃ p : Payload, ∃ own issuerKey, payload = p.write
            ∧ s.enclaveKey = own.publicKey
            ∧ (read (w.inMode .identityLinkage) accepts payload).trace
                  answer count
                = ([], .ok { s with enclaveKey := issuerKey })
            ∧ w.Relaxed answer count p.certificate
                (p.bundle ++ p.toBackParts.write) calls own issuerKey
                p.bundle.length := by
  refine ⟨fun _ _ _ _ _ h => Walk.relaxed_of_full h, ?_⟩
  intro payload calls s h
  obtain ⟨hends, hanswered⟩ := trace_eq_iff.1 h
  obtain ⟨p, key, hpayload, hage, hchain, hs⟩ := read_ends_ok_iff.1 hends
  have hwalk : ((w.inMode .full).chain p.certificate
      (p.bundle ++ p.toBackParts.write)).trace answer count
        = (calls, .ok (key, p.bundle.length)) :=
    trace_eq_iff.2 ⟨Walk.chain_append_ends_ok_iff.2 hchain, hanswered⟩
  obtain ⟨own, issuerKey, hkey, hrelaxed⟩ := Walk.relaxed_of_full hwalk
  have hreduced := Walk.chain_append_ends_ok_iff.1
    (trace_eq_iff.1 hrelaxed.reduced).1
  refine ⟨p, own, issuerKey, hpayload, ?_, ?_, hrelaxed⟩
  · rw [hs, ← hkey]
    rfl
  · refine trace_eq_iff.2 ⟨read_ends_ok_iff.2 ?_, trivial⟩
    refine ⟨p, issuerKey, hpayload, hage, hreduced, ?_⟩
    rw [hs]
    rfl

end Statement

-- ======================================================== a small chain

namespace SmallChain

def root : Certificate.Profile := profile 0x72 0x72 1

def inner : Certificate.Profile := profile 0x72 0x69 2

def own : Certificate.Profile := profile 0x69 0x6f 3

def anchor : Anchor :=
  ⟨root.publicKey, "r", 1893456000⟩

/-- The root, and one certificate between it and the enclave. -/
def bundle : Bundle where
  entries := [root.parts.write, inner.parts.write]
  count_le := by decide
  entry_lt := by
    simp [Certificate.Profile.length_write, root, inner, profile]

def payload : Payload where
  moduleId := "m"
  moduleId_fits := by decide
  timestamp := 1700000000000
  registers := {
    first := .ofNat 48 0
    later := List.replicate 15 (.ofNat 3 0, .ofNat 48 0)
    length_later := rfl }
  certificate := own.parts.write
  certificate_fits := by
    simp [Certificate.Profile.length_write, own, profile]
  publicKey := none
  userData := some ⟨.inline, [], by decide⟩
  nonce := none
  bundle := bundle.write

def signature : RawSignature :=
  .ofNat 96 0

variable {w : Walk}

/-- The chain is unbroken while its certificates are valid. -/
theorem unbroken (hmode : w.mode = .full) (hanchor : w.anchor = anchor)
    (hvalid : own.validity.check w.now w.fuzzPercent = .ok ()) :
    w.Unbroken payload.certificate bundle
      [inner.certificate, own.certificate] where
  root := by
    intro _ der hder
    cases hder
    rw [hanchor]
    exact ⟨root.certificate, root.read_parts, rfl, rfl⟩
  reads := by
    rw [if_pos hmode]
    exact .cons inner.read_parts (.cons own.read_parts .nil)
  linked := by
    rw [hanchor]
    have hcovers := Validity.check_eq_ok_iff_covers.1 hvalid
    exact ⟨rfl, hcovers, rfl, hcovers, trivial⟩

/-- The calls of a walk that finds both certificates signed. -/
def calls : List Call :=
  (anchor.issuer.questions [inner.certificate, own.certificate]).map
    fun query => ⟨query, true⟩

/-- In full mode the chain leads to the enclave's own key. -/
theorem chain_ends (hmode : w.mode = .full) (hanchor : w.anchor = anchor)
    (hvalid : own.validity.check w.now w.fuzzPercent = .ok ()) :
    (w.chain payload.certificate payload.bundle).Ends calls
      (.ok (own.publicKey, payload.bundle.length)) := by
  refine Walk.chain_ends_ok_iff.2 ⟨bundle, _, unbroken hmode hanchor hvalid,
    ⟨[], (List.append_nil _).symm⟩, rfl, rfl, ?_⟩
  rw [Walk.approvals_full hmode, hanchor]
  rfl

/-- A walk over the chain in November 2023. -/
def walk : Walk :=
  ⟨anchor, .full, 30, 1700000000⟩

end SmallChain

/-- The small chain is walked, and its payload read, in both modes by a
judge that says yes to everything. The reduced mode comes to the key of
the certificate before the enclave's own. -/
theorem Statement.reduced_of_full_smallChain :
    ((SmallChain.walk.inMode .full).chain SmallChain.payload.certificate
          SmallChain.payload.bundle).trace (fun _ _ => true) 0
        = (SmallChain.calls, .ok (SmallChain.own.publicKey,
            SmallChain.payload.bundle.length))
      ∧ (∃ own key, SmallChain.walk.Relaxed (fun _ _ => true) 0
          SmallChain.payload.certificate SmallChain.payload.bundle
          SmallChain.calls own key SmallChain.payload.bundle.length)
      ∧ (read (SmallChain.walk.inMode .full) .any
            SmallChain.payload.write).trace (fun _ _ => true) 0
          = (SmallChain.calls,
              .ok (SmallChain.payload.statement SmallChain.own.publicKey))
      ∧ (read (SmallChain.walk.inMode .identityLinkage) .any
            SmallChain.payload.write).trace (fun _ _ => true) 0
          = ([],
              .ok (SmallChain.payload.statement
                SmallChain.inner.publicKey)) := by
  have hends : ((SmallChain.walk.inMode .full).chain
      SmallChain.payload.certificate SmallChain.payload.bundle).Ends
        SmallChain.calls (.ok (SmallChain.own.publicKey,
          SmallChain.payload.bundle.length)) :=
    SmallChain.chain_ends rfl rfl rfl
  have hanswered : Answered (fun _ _ => true) 0 SmallChain.calls :=
    ⟨rfl, rfl, trivial⟩
  have hwalk := trace_eq_iff.2 ⟨hends, hanswered⟩
  have hread : (read (SmallChain.walk.inMode .full) .any
      SmallChain.payload.write).trace (fun _ _ => true) 0
        = (SmallChain.calls,
            .ok (SmallChain.payload.statement SmallChain.own.publicKey)) :=
    trace_eq_iff.2 ⟨read_ends_ok_iff.2
      ⟨SmallChain.payload, SmallChain.own.publicKey, rfl, rfl, hends, rfl⟩,
      hanswered⟩
  obtain ⟨hwalks, hreads⟩ :=
    reduced_of_full SmallChain.walk .any (fun _ _ => true) 0
  obtain ⟨own, key, -, hrelaxed⟩ := hwalks _ _ _ _ _ hwalk
  obtain ⟨p, own', key', -, -, hreduced, hrelaxed'⟩ := hreads _ _ _ hread
  have hlast : SmallChain.calls.getLast?
      = some ⟨SmallChain.inner.certificate.subject.question
          SmallChain.own.certificate, true⟩ := rfl
  have hkey : SmallChain.inner.publicKey = key' := by
    rw [hrelaxed'.own_verified, Option.some.injEq, Call.mk.injEq] at hlast
    exact (Query.der.inj hlast.1).1.symm
  rw [← hkey] at hreduced
  exact ⟨hwalk, ⟨own, key, hrelaxed⟩, hread, hreduced⟩

end Attestation
