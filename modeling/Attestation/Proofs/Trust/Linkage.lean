/-
A walk as the linking of a list. The walk reads an entry, looks into it,
reads the next one; `chain_eq` says that it might as well frame all
entries first, check the root, link the certificates in a row
(`linkAll`), and only then say whether the framing failed. Who asks
what, and which chains are good, is then a matter of lists.

A link is one step of a row, and everything about rows comes from what
is said of it: it is made exactly if the certificate can be read, names
its issuer, is valid at the time, and, in full mode, its question is
answered yes (`link_ends_ok_iff`); and in full mode it either asks
nothing and is refused because the certificate does not belong there, or
asks the one question about it and does as the answer says
(`link_full_ends`).

By induction on the row, `linkAll_ends_ok_iff` says which rows of
certificates link. `Asked` is about every path, also one that ends
before the row does. The questions are about certificates at the
beginning of the row, one about each of them in their order; an answer
of no is the last one and breaks the chain at that place; and after
nothing but yes the row is at its end, unless it goes on with a
certificate that does not belong there. So none is passed over, and this
is what tells the questions of a row from those of a walk that leaves
some of them out (`asked_of_linkAll`).

Names and keys go from one certificate to the next. The issuer of a
certificate is the one before it in the row (`Issuer.after`), and for
the first one the anchor.
-/
import Attestation.Proofs.Signature.Path
import Attestation.Proofs.Time.Window
import Attestation.Proofs.Trust.Framing
import Mathlib.Data.List.Forall2

namespace Attestation

open Reader Inquiry

/-- The byte strings are read as these certificates. -/
def Certificate.ReadAs : List Bytes → List Certificate → Prop :=
  List.Forall₂ fun der c => Certificate.read der = .ok c

/-- The last of some byte strings is read as the last certificate. -/
theorem Certificate.readAs_concat_iff {ders : List Bytes} {der : Bytes}
    {certs : List Certificate} :
    ReadAs (ders ++ [der]) certs
      ↔ ∃ inner last, certs = inner ++ [last] ∧ ReadAs ders inner
          ∧ Certificate.read der = .ok last := by
  induction ders generalizing certs with
  | nil =>
    constructor
    · intro h
      cases h with
      | cons hread hnil =>
        cases hnil
        exact ⟨[], _, rfl, .nil, hread⟩
    · intro h
      obtain ⟨inner, last, hcerts, hinner, hread⟩ := h
      cases hinner
      rw [hcerts]
      exact .cons hread .nil
  | cons first ders ih =>
    constructor
    · intro h
      cases h with
      | cons hfirst hrest =>
        obtain ⟨inner, last, hcerts, hinner, hread⟩ := ih.1 hrest
        subst hcerts
        exact ⟨_ :: inner, last, rfl, .cons hfirst hinner, hread⟩
    · intro h
      obtain ⟨inner, last, hcerts, hinner, hread⟩ := h
      cases hinner with
      | cons hfirst hrest =>
        rw [hcerts]
        exact .cons hfirst (ih.2 ⟨_, last, rfl, hrest, hread⟩)

/-- The trusted root as an issuer, spelled out: the digest of its common
name, and its key. A walk begins with the same, by definition. -/
def Anchor.asIssuer (anchor : Anchor) : Issuer :=
  ⟨sha256 (Utf8.encode anchor.commonName.toList), anchor.publicKey⟩

/-- The root's own certificate: it can be read, and has the root's key
and the digest of its common name. -/
def Anchor.OwnCertificate (anchor : Anchor) (der : Bytes) : Prop :=
  ∃ c, Certificate.read der = .ok c ∧ c.publicKey = anchor.publicKey
    ∧ c.subjectHash = sha256 (Utf8.encode anchor.commonName.toList)

/-- The issuer after a row of certificates: the subject of the last of
them. -/
def Issuer.after (issuer : Issuer) : List Certificate → Issuer
  | [] => issuer
  | c :: later => Issuer.after ⟨c.subjectHash, c.publicKey⟩ later

theorem Issuer.after_concat (issuer : Issuer) (inner : List Certificate)
    (last : Certificate) : issuer.after (inner ++ [last]) = last.subject := by
  induction inner generalizing issuer with
  | nil => rfl
  | cons c inner ih => exact ih c.subject

/-- The question whether the issuer signed a certificate: the key is
the issuer's, the digest is that of the bytes the certificate was signed
over. -/
def Issuer.question (issuer : Issuer) (c : Certificate) : Query :=
  .der issuer.key (sha384 c.signed) c.signature

/-- The questions whether each certificate of a row was signed by the
one before it, the first by the issuer. -/
def Issuer.questions (issuer : Issuer) : List Certificate → List Query
  | [] => []
  | c :: later =>
    issuer.question c :: Issuer.questions ⟨c.subjectHash, c.publicKey⟩ later

/-- The questions are about signatures in DER. -/
theorem Issuer.der_of_mem_questions (issuer : Issuer)
    (certs : List Certificate) :
    ∀ query ∈ issuer.questions certs, ∃ key digest signature,
      query = .der key digest signature := by
  induction certs generalizing issuer with
  | nil =>
    intro query h
    cases h
  | cons c later ih =>
    intro query h
    rcases List.mem_cons.1 h with h | h
    · exact ⟨issuer.key, sha384 c.signed, c.signature, h⟩
    · exact ih c.subject query h

namespace Walk

/-- Every certificate of a row names the one before it as its issuer,
the first names the given issuer, and all are valid now. -/
def Linked (w : Walk) (issuer : Issuer) : List Certificate → Prop
  | [] => True
  | c :: later =>
    c.issuerHash = issuer.identity
      ∧ c.validity.Covers w.fuzzPercent w.now
      ∧ w.Linked ⟨c.subjectHash, c.publicKey⟩ later

/-- The calls that end in a linked row: in full mode every question is
answered yes, otherwise none is asked. -/
def approvals (w : Walk) (issuer : Issuer) (certs : List Certificate) :
    List Call :=
  match w.mode with
  | .identityLinkage => []
  | .full => (issuer.questions certs).map fun query => ⟨query, true⟩

/-- Links certificates, each with its index, one after another. -/
def linkAll (w : Walk) (issuer : Issuer) :
    List (Bytes × Nat) → Inquiry Issuer
  | [] => .done issuer
  | (der, index) :: later =>
    (w.link index issuer der).bind fun issuer => w.linkAll issuer later

variable {w : Walk} {issuer issuer' : Issuer} {index : Nat} {der : Bytes}
  {calls : List Call} {links : List (Bytes × Nat)}

theorem approvals_nil : w.approvals issuer [] = [] := by
  unfold approvals
  cases w.mode <;> rfl

theorem approvals_cons (c : Certificate) (later : List Certificate) :
    w.approvals issuer (c :: later)
      = w.approvals issuer [c] ++ w.approvals c.subject later := by
  unfold approvals
  cases w.mode <;> rfl

/-- In full mode the approvals are the questions, all answered yes. -/
theorem approvals_full (hmode : w.mode = .full)
    (certs : List Certificate) :
    w.approvals issuer certs
      = (issuer.questions certs).map fun query => ⟨query, true⟩ := by
  rw [approvals, hmode]

-- ===================================================== a single link

/-- The rules of a link that ask nothing: the certificate can be read,
names its issuer, and is valid now. -/
def examine (w : Walk) (index : Nat) (issuer : Issuer) (der : Bytes) :
    Except Refusal Certificate := do
  let c ← Certificate.read der
  require (c.issuerHash = issuer.identity) (Refusal.chainBroken index)
  c.validity.check w.now w.fuzzPercent
  return c

/-- What can be said of a certificate without asking: it can be read,
names its issuer, and is valid at the time. -/
theorem examine_eq_ok_iff {c : Certificate} :
    w.examine index issuer der = .ok c
      ↔ Certificate.read der = .ok c
        ∧ c.issuerHash = issuer.identity
        ∧ c.validity.Covers w.fuzzPercent w.now := by
  unfold examine
  rw [← Validity.check_eq_ok_iff_covers]
  constructor
  · intro h
    obtain ⟨c', hread, h⟩ := bind_eq_ok_iff.1 h
    obtain ⟨_, hname, h⟩ := bind_eq_ok_iff.1 h
    obtain ⟨_, hvalid, h⟩ := bind_eq_ok_iff.1 h
    cases h
    exact ⟨hread, require_eq_ok_iff.1 hname, hvalid⟩
  · intro h
    obtain ⟨hread, hname, hvalid⟩ := h
    refine bind_eq_ok_iff.2 ⟨c, hread, ?_⟩
    refine bind_eq_ok_iff.2 ⟨(), require_eq_ok_iff.2 hname, ?_⟩
    exact bind_eq_ok_iff.2 ⟨(), hvalid, rfl⟩

/-- A link is what asks nothing, and then at most one question. -/
theorem link_eq (w : Walk) (index : Nat) (issuer : Issuer) (der : Bytes) :
    w.link index issuer der
      = (ofExcept (w.examine index issuer der)).bind fun c =>
          (w.checkIssued index issuer c).bind fun _ =>
            .done c.subject := by
  unfold examine
  simp only [ofExcept_bind, bind_assoc]
  rfl

theorem checkIssued_linkage (hmode : w.mode = .identityLinkage)
    (c : Certificate) : w.checkIssued index issuer c = .done () := by
  unfold checkIssued
  rw [hmode]

/-- In full mode a certificate is one question, and a no breaks the
chain. -/
theorem checkIssued_full_ends_iff (hmode : w.mode = .full)
    {c : Certificate} {outcome : Except Refusal Unit} :
    (w.checkIssued index issuer c).Ends calls outcome
      ↔ ∃ answer, calls = [⟨issuer.question c, answer⟩]
          ∧ outcome = require (answer = true) (.chainBroken index) := by
  have hask : w.checkIssued index issuer c
      = .ask (issuer.question c) fun answer =>
          ofExcept (require (answer = true) (.chainBroken index)) := by
    unfold checkIssued
    rw [hmode]
    rfl
  rw [hask]
  constructor
  · intro h
    cases h with
    | ask _ _ answer h =>
      obtain ⟨hlater, houtcome⟩ := ends_ofExcept_iff.1 h
      exact ⟨answer, by rw [hlater], houtcome⟩
  · intro h
    obtain ⟨answer, hcalls, houtcome⟩ := h
    rw [hcalls]
    exact .ask _ _ answer (ends_ofExcept_iff.2 ⟨rfl, houtcome⟩)

/-- A certificate is accepted if what the mode asks about it is answered
yes. -/
theorem checkIssued_ends_ok_iff {c : Certificate} {u : Unit} :
    (w.checkIssued index issuer c).Ends calls (.ok u)
      ↔ calls = w.approvals issuer [c] := by
  unfold approvals
  cases hmode : w.mode with
  | identityLinkage =>
    rw [checkIssued_linkage hmode, ends_done_iff]
    exact and_iff_left rfl
  | full =>
    rw [checkIssued_full_ends_iff hmode]
    constructor
    · intro h
      obtain ⟨answer, hcalls, hanswer⟩ := h
      rw [hcalls, require_eq_ok_iff.1 hanswer.symm]
      rfl
    · intro h
      exact ⟨true, h, rfl⟩

/-- A link succeeds with the subject of the certificate, after the
question in full mode was answered yes. -/
theorem link_ends_ok_iff :
    (w.link index issuer der).Ends calls (.ok issuer')
      ↔ ∃ c, Certificate.read der = .ok c
          ∧ c.issuerHash = issuer.identity
          ∧ c.validity.Covers w.fuzzPercent w.now
          ∧ issuer' = c.subject ∧ calls = w.approvals issuer [c] := by
  rw [link_eq, ends_ofExcept_bind_ok_iff]
  constructor
  · intro h
    obtain ⟨c, hc, h⟩ := h
    obtain ⟨hread, hname, hvalid⟩ := examine_eq_ok_iff.1 hc
    obtain ⟨u, first, later, hfirst, hlater, hcalls⟩ :=
      ends_bind_ok_iff.1 h
    obtain ⟨hnil, hsubject⟩ := ends_done_iff.1 hlater
    rw [hnil, List.append_nil] at hcalls
    subst hcalls
    exact ⟨c, hread, hname, hvalid, Except.ok.inj hsubject,
      checkIssued_ends_ok_iff.1 hfirst⟩
  · intro h
    obtain ⟨c, hread, hname, hvalid, hsubject, hcalls⟩ := h
    refine ⟨c, examine_eq_ok_iff.2 ⟨hread, hname, hvalid⟩, ?_⟩
    refine ends_bind_ok_iff.2 ⟨(), calls, [], ?_, ?_, ?_⟩
    · exact checkIssued_ends_ok_iff.2 hcalls
    · rw [hsubject]
      exact .done c.subject
    · rw [List.append_nil]

/-- What is no certificate, or one that names another issuer or is not
valid, cannot be linked. -/
theorem not_linked_of_examine {reason : Refusal}
    (h : w.examine index issuer der = .error reason) :
    ∀ c, Certificate.read der = .ok c → ¬w.Linked issuer [c] := by
  rintro c hread ⟨hname, hvalid, -⟩
  rw [examine_eq_ok_iff.2 ⟨hread, hname, hvalid⟩] at h
  cases h

/-- Every path through a link in full mode: nothing is asked and it
fails over what cannot be linked, or one question about the certificate
decides. -/
theorem link_full_ends (hmode : w.mode = .full)
    {outcome : Except Refusal Issuer}
    (h : (w.link index issuer der).Ends calls outcome) :
    (calls = [] ∧ (∃ reason, outcome = .error reason)
        ∧ ∀ c, Certificate.read der = .ok c → ¬w.Linked issuer [c])
      ∨ ∃ c answer, Certificate.read der = .ok c ∧ w.Linked issuer [c]
          ∧ calls = [⟨issuer.question c, answer⟩]
          ∧ outcome = (require (answer = true) (.chainBroken index)).map
              fun _ => c.subject := by
  rw [link_eq, ends_ofExcept_bind_iff] at h
  rcases h with ⟨reason, hc, hcalls, houtcome⟩ | ⟨c, hc, h⟩
  · exact Or.inl ⟨hcalls, ⟨reason, houtcome⟩, not_linked_of_examine hc⟩
  · obtain ⟨hread, hname, hvalid⟩ := examine_eq_ok_iff.1 hc
    have hlinked : w.Linked issuer [c] := ⟨hname, hvalid, trivial⟩
    rcases ends_bind_iff.1 h with ⟨reason, h, houtcome⟩
      | ⟨u, first, later, hfirst, hlater, hcalls⟩
    · obtain ⟨answer, hcalls, hanswer⟩ :=
        (checkIssued_full_ends_iff hmode).1 h
      refine Or.inr ⟨c, answer, hread, hlinked, hcalls, ?_⟩
      rw [← hanswer, houtcome]
      rfl
    · obtain ⟨answer, hfirst, hanswer⟩ :=
        (checkIssued_full_ends_iff hmode).1 hfirst
      obtain ⟨hnil, hsubject⟩ := ends_done_iff.1 hlater
      refine Or.inr ⟨c, answer, hread, hlinked, ?_, ?_⟩
      · rw [hcalls, hnil, hfirst, List.append_nil]
      · rw [← hanswer, hsubject]
        rfl

/-- Without full mode a link asks nothing. -/
theorem link_linkage_ends (hmode : w.mode = .identityLinkage)
    {outcome : Except Refusal Issuer}
    (h : (w.link index issuer der).Ends calls outcome) : calls = [] := by
  rw [link_eq, ends_ofExcept_bind_iff] at h
  rcases h with ⟨reason, -, hcalls, -⟩ | ⟨c, -, h⟩
  · exact hcalls
  · rw [checkIssued_linkage hmode] at h
    exact (ends_done_iff.1 h).1

-- ======================================================= rows of links

/-- A row links when its certificates can be read and follow from one
another; it ends with the subject of the last one. -/
theorem linkAll_ends_ok_iff :
    (w.linkAll issuer links).Ends calls (.ok issuer')
      ↔ ∃ certs, Certificate.ReadAs (links.map Prod.fst) certs
          ∧ w.Linked issuer certs ∧ issuer' = issuer.after certs
          ∧ calls = w.approvals issuer certs := by
  induction links generalizing issuer calls with
  | nil =>
    constructor
    · intro h
      obtain ⟨hcalls, hissuer⟩ := ends_done_iff.1 h
      refine ⟨[], .nil, trivial, Except.ok.inj hissuer, ?_⟩
      rw [hcalls, approvals_nil]
    · intro h
      obtain ⟨certs, hread, -, hissuer, hcalls⟩ := h
      cases hread
      rw [hissuer, hcalls, approvals_nil]
      exact .done issuer
  | cons link later ih =>
    obtain ⟨der, index⟩ := link
    rw [linkAll, ends_bind_ok_iff]
    constructor
    · intro h
      obtain ⟨next, first, rest, hfirst, hrest, hcalls⟩ := h
      obtain ⟨c, hread, hname, hvalid, hnext, hasked⟩ :=
        link_ends_ok_iff.1 hfirst
      subst hnext
      obtain ⟨certs, hreads, hlinked, hissuer, hlater⟩ := ih.1 hrest
      refine ⟨c :: certs, .cons hread hreads, ⟨hname, hvalid, hlinked⟩,
        hissuer, ?_⟩
      rw [hcalls, hasked, hlater, ← approvals_cons]
    · intro h
      obtain ⟨certs, hreads, hlinked, hissuer, hcalls⟩ := h
      cases hreads with
      | cons hread hreads =>
        rename_i c certs
        obtain ⟨hname, hvalid, hlinked⟩ := hlinked
        refine ⟨c.subject, w.approvals issuer [c],
          w.approvals c.subject certs, ?_, ?_, ?_⟩
        · exact link_ends_ok_iff.2 ⟨c, hread, hname, hvalid, rfl, rfl⟩
        · exact ih.2 ⟨certs, hreads, hlinked, hissuer, rfl⟩
        · rw [hcalls, approvals_cons]

/-- Without full mode a row asks nothing. -/
theorem linkAll_linkage_ends (hmode : w.mode = .identityLinkage)
    {outcome : Except Refusal Issuer}
    (h : (w.linkAll issuer links).Ends calls outcome) : calls = [] := by
  induction links generalizing issuer calls with
  | nil => exact (ends_done_iff.1 h).1
  | cons link later ih =>
    rcases ends_bind_iff.1 h with ⟨reason, h, -⟩
      | ⟨next, first, rest, hfirst, hrest, hcalls⟩
    · exact link_linkage_ends hmode h
    · rw [hcalls, link_linkage_ends hmode hfirst, ih hrest]
      rfl

/-- Rows are linked one after another. -/
theorem linkAll_append {more : List (Bytes × Nat)} :
    w.linkAll issuer (links ++ more)
      = (w.linkAll issuer links).bind fun issuer =>
          w.linkAll issuer more := by
  induction links generalizing issuer with
  | nil => rfl
  | cons link later ih =>
    rw [List.cons_append, linkAll, linkAll, bind_assoc]
    congr 1
    funext issuer
    exact ih

-- ===================================================== what was asked

/-- What happens while the certificates of a row are linked one after
another, where `certs` are those that were asked about: the calls, and
how the row ends. An answer of no breaks the chain at the place of its
certificate. Otherwise the row goes on as long as it can, so nothing
that could be asked about is passed over. -/
structure Asked {α : Type} (w : Walk) (issuer : Issuer)
    (links : List (Bytes × Nat)) (certs : List Certificate)
    (calls : List Call) (outcome : Except Refusal α) : Prop where
  /-- They are the certificates at the beginning of the row. -/
  reads : Certificate.ReadAs ((links.map Prod.fst).take certs.length) certs
  /-- Nothing is asked before names and times were found good. -/
  linked : w.Linked issuer certs
  /-- There is one question about each, in their order. -/
  queries : calls.map Call.query = issuer.questions certs
  /-- An answer of no is the last one. -/
  broken : ∀ j call, calls[j]? = some call → call.answer = false →
    calls.length = j + 1
      ∧ ∃ link, links[j]? = some link
          ∧ outcome = .error (.chainBroken link.2)
  /-- After nothing but yes the row is at its end, or goes on with what
  cannot be linked. -/
  stopped : (∀ call ∈ calls, call.answer = true) →
    ∀ link, links[certs.length]? = some link →
      (∃ reason, outcome = .error reason)
        ∧ ∀ c, Certificate.read link.1 = .ok c →
          ¬w.Linked (issuer.after certs) [c]

namespace Asked

variable {α : Type} {outcome : Except Refusal α} {c : Certificate}
  {certs : List Certificate}

/-- An empty row asks nothing. -/
theorem nil : w.Asked issuer [] [] [] outcome where
  reads := .nil
  linked := trivial
  queries := rfl
  broken := nofun
  stopped := nofun

/-- A row that begins with what cannot be linked asks nothing. -/
theorem stuck {reason : Refusal}
    (h : ∀ c, Certificate.read der = .ok c → ¬w.Linked issuer [c]) :
    w.Asked issuer ((der, index) :: links) []
      [] (.error reason : Except Refusal α) where
  reads := .nil
  linked := trivial
  queries := rfl
  broken := nofun
  stopped := by
    rintro - link hlink
    cases hlink
    exact ⟨⟨reason, rfl⟩, h⟩

/-- A question that is answered no ends the row. -/
theorem no (hread : Certificate.read der = .ok c)
    (hlinked : w.Linked issuer [c]) :
    w.Asked issuer ((der, index) :: links) [c]
      [⟨issuer.question c, false⟩]
      (.error (.chainBroken index) : Except Refusal α) where
  reads := .cons hread .nil
  linked := hlinked
  queries := rfl
  broken := by
    intro j call h _
    cases j with
    | zero => exact ⟨rfl, (der, index), rfl, rfl⟩
    | succ j => cases h
  stopped := by
    intro hyes
    cases hyes _ List.mem_cons_self

/-- After a question that is answered yes the certificate issues the
next one. -/
theorem yes (hread : Certificate.read der = .ok c)
    (hlinked : w.Linked issuer [c])
    (h : w.Asked ⟨c.subjectHash, c.publicKey⟩ links certs calls outcome) :
    w.Asked issuer ((der, index) :: links) (c :: certs)
      (⟨issuer.question c, true⟩ :: calls) outcome where
  reads := .cons hread h.reads
  linked := ⟨hlinked.1, hlinked.2.1, h.linked⟩
  queries := by
    rw [List.map_cons, h.queries]
    rfl
  broken := by
    intro j call hj hno
    cases j with
    | zero =>
      cases hj
      cases hno
    | succ j =>
      obtain ⟨hlen, link, hlink, ho⟩ := h.broken j call hj hno
      exact ⟨by rw [List.length_cons, hlen], link, hlink, ho⟩
  stopped := by
    intro hyes
    exact h.stopped (List.forall_mem_cons.1 hyes).2

/-- The questions of a row are about certificates. -/
theorem der_of_mem (h : w.Asked issuer links certs calls outcome) :
    ∀ call ∈ calls, ∃ key digest signature,
      call.query = .der key digest signature := by
  intro call hmem
  have hquery : call.query ∈ issuer.questions certs := by
    rw [← h.queries]
    exact List.mem_map_of_mem hmem
  exact issuer.der_of_mem_questions certs call.query hquery

/-- Before a success every answer was yes. -/
theorem approved {value : α}
    (h : w.Asked issuer links certs calls (.ok value)) :
    ∀ call ∈ calls, call.answer = true := by
  intro call hmem
  obtain ⟨j, hj⟩ := List.mem_iff_getElem?.1 hmem
  cases hanswer : call.answer with
  | true => rfl
  | false =>
    obtain ⟨-, link, -, ho⟩ := h.broken j call hj hanswer
    cases ho

/-- The answers before the last one are all yes. -/
theorem dropLast (h : w.Asked issuer links certs calls outcome) :
    ∀ call ∈ calls.dropLast, call.answer = true := by
  intro call hmem
  obtain ⟨j, hlt, hj⟩ := List.mem_iff_getElem.1 hmem
  rw [List.length_dropLast] at hlt
  have hget : calls[j]? = some call := by
    rw [← hj, List.getElem_dropLast]
    exact List.getElem?_eq_getElem (by omega)
  cases hanswer : call.answer with
  | true => rfl
  | false =>
    have hlast := (h.broken j call hget hanswer).1
    omega

/-- Another outcome may stand in place of this one if every refusal
stays what it is. -/
theorem transfer {β : Type} {outcome' : Except Refusal β}
    (h : w.Asked issuer links certs calls outcome)
    (hsame : ∀ reason, outcome = .error reason
      → outcome' = .error reason) :
    w.Asked issuer links certs calls outcome' where
  reads := h.reads
  linked := h.linked
  queries := h.queries
  broken := by
    intro j call hj hno
    obtain ⟨hlen, link, hlink, ho⟩ := h.broken j call hj hno
    exact ⟨hlen, link, hlink, hsame _ ho⟩
  stopped := by
    intro hyes link hlink
    obtain ⟨⟨reason, ho⟩, hnone⟩ := h.stopped hyes link hlink
    exact ⟨⟨reason, hsame reason ho⟩, hnone⟩

end Asked

/-- In full mode a row asks about its certificates one after another,
up to the first that fails. -/
theorem asked_of_linkAll (hmode : w.mode = .full)
    {outcome : Except Refusal Issuer}
    (h : (w.linkAll issuer links).Ends calls outcome) :
    ∃ certs, w.Asked issuer links certs calls outcome := by
  induction links generalizing issuer calls with
  | nil =>
    rw [(ends_done_iff.1 h).1]
    exact ⟨[], .nil⟩
  | cons link later ih =>
    obtain ⟨der, index⟩ := link
    rcases ends_bind_iff.1 h with ⟨reason, h, ho⟩
      | ⟨next, first, rest, hfirst, hrest, hcalls⟩
    · rw [ho]
      rcases link_full_ends hmode h with ⟨hcalls, -, hnone⟩
        | ⟨c, answer, hread, hlinked, hcalls, he⟩
      · rw [hcalls]
        exact ⟨[], .stuck hnone⟩
      · cases answer with
        | true => cases he
        | false =>
          cases he
          rw [hcalls]
          exact ⟨[c], .no hread hlinked⟩
    · rcases link_full_ends hmode hfirst with ⟨-, ⟨reason, he⟩, -⟩
        | ⟨c, answer, hread, hlinked, hasked, he⟩
      · cases he
      · cases answer with
        | false => cases he
        | true =>
          cases he
          obtain ⟨certs, hlater⟩ := ih hrest
          rw [hcalls, hasked]
          exact ⟨c :: certs, .yes hread hlinked hlater⟩

end Walk

end Attestation
