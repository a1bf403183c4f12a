/-
What a verification asks its judge, in which order, and what an answer
of no means. `Consultation` collects it, and `exists_consultation`
proves it of every verification by every judge, also of one whose
answers depend on how many questions came before.

The questions come in two parts. Those about certificates are asked
while the payload is read. Whether there are any is a matter of the
payload alone: it has to get to its bundle in time, and the bundle has
to open with the root (`Reaches`). If it does, the questions are those
of the row that the entries after the first and the enclave's own
certificate make up, with none passed over (`AskedOf`); how far the row
goes before something else ends it is then settled by the certificates
and the answers. The payload and the bundle are compared as bytes, so
nothing here depends on how they are read.

The question about the document itself is asked exactly if the payload
was read to its end, and it is the last one. In full mode there was then
one question about every certificate (`whole_of_read`), and the key is
the enclave's own. The digest is that of the array that is signed,
written out around the payload.

A verification has four ends (`Stage`), and two of them ask nothing, so
there are three cases: silence, a payload that cannot be read, and a
document that was judged. Each of them gives the whole of
`Consultation`.
-/
import Attestation.Proofs.Verification.FullTrust

namespace Attestation

open Inquiry

-- ================================================= reading a payload

namespace Statement

variable {w : Walk} {accepts : AgeRule} {calls : List Call}
  {payload : Bytes} {outcome : Except Refusal Statement}

/-- Without full mode nothing is asked while a payload is read. -/
theorem read_linkage_ends (hmode : w.mode = .identityLinkage)
    (h : (read w accepts payload).Ends calls outcome) : calls = [] := by
  rcases read_ends_cases h with ⟨hnil, -⟩
    | ⟨p, cabundle, ended, -, -, hchain, -⟩
  · exact hnil
  · exact Walk.chain_linkage_ends hmode hchain

/-- A payload gets to its bundle in time: the fields `p` stand before
it, their time is accepted, and what follows opens a bundle of `n`
entries, of which `ders` can be framed. -/
structure Reaches (w : Walk) (accepts : AgeRule) (payload : Bytes)
    (p : FrontParts) (n : Nat) (ders : List Bytes) : Prop where
  timely : accepts p.timestamp w.now = true
  payload_eq : ∃ cabundle,
    payload = p.write ++ Field.cabundle.spelling ++ cabundle
      ∧ w.Opens cabundle n ders

/-- The calls are about the certificates of a payload. There are none,
and the payload is refused, if it does not get to a bundle; otherwise
they are those of the row that the entries after the first and the
enclave's own certificate make up, as far as it can be linked. -/
def AskedOf (w : Walk) (accepts : AgeRule) (payload : Bytes)
    (calls : List Call) (outcome : Except Refusal Statement) : Prop :=
  (calls = [] ∧ (∃ reason, outcome = .error reason)
      ∧ ∀ p n ders, ¬Reaches w accepts payload p n ders)
    ∨ ∃ p n ders certs, Reaches w accepts payload p n ders
        ∧ (ders.length < n → ∃ reason, outcome = .error reason)
        ∧ w.Asked w.anchor.asIssuer (w.row p.certificate n ders) certs
            calls outcome

/-- A verification that goes on after its payload was read asks what the
reading asked. -/
theorem AskedOf.transfer {outcome' : Except Refusal Statement}
    (h : AskedOf w accepts payload calls outcome)
    (hsame : ∀ reason, outcome = .error reason
      → outcome' = .error reason) :
    AskedOf w accepts payload calls outcome' := by
  rcases h with ⟨hnil, ⟨reason, ho⟩, hnone⟩
    | ⟨p, n, ders, certs, hreaches, hshort, hasked⟩
  · exact Or.inl ⟨hnil, ⟨reason, hsame reason ho⟩, hnone⟩
  · refine Or.inr ⟨p, n, ders, certs, hreaches, ?_, hasked.transfer hsame⟩
    intro hlen
    obtain ⟨reason, ho⟩ := hshort hlen
    exact ⟨reason, hsame reason ho⟩

/-- In full mode the questions that are asked while a payload is read
are those about its certificates, none of them left out. -/
theorem askedOf_of_read (hmode : w.mode = .full)
    (h : (read w accepts payload).Ends calls outcome) :
    AskedOf w accepts payload calls outcome := by
  rcases read_ends_cases h with ⟨hnil, herror, hnone⟩
    | ⟨p, cabundle, ended, htimely, hpayload, hchain, hsame⟩
  · refine Or.inl ⟨hnil, herror, ?_⟩
    rintro p n ders ⟨htimely, cabundle, hpayload, -⟩
    exact hnone p cabundle htimely hpayload
  rcases Walk.chain_full_ends hmode hchain
    with ⟨hnil, ⟨reason, he⟩, hnone⟩
    | ⟨n, ders, certs, hopens, hshort, hasked⟩
  · refine Or.inl ⟨hnil, ⟨reason, hsame reason he⟩, ?_⟩
    rintro q n ders ⟨-, cabundle', hpayload', hopens⟩
    -- the fields before the bundle end at one place only
    have hwrite := hpayload.symm.trans hpayload'
    rw [List.append_assoc, List.append_assoc] at hwrite
    have hrest := List.append_cancel_left (frontParts_write_inj hwrite).2
    rw [← hrest] at hopens
    exact hnone n ders hopens
  · refine Or.inr ⟨p, n, ders, certs,
      ⟨htimely, cabundle, hpayload, hopens⟩, ?_, hasked.transfer hsame⟩
    intro hlen
    obtain ⟨reason, he⟩ := hshort hlen
    exact ⟨reason, hsame reason he⟩

/-- In either mode what is asked is asked about some row, which may be
empty. -/
theorem exists_asked_of_read
    (h : (read w accepts payload).Ends calls outcome) :
    ∃ issuer links certs, w.Asked issuer links certs calls outcome := by
  cases hmode : w.mode with
  | identityLinkage =>
    rw [read_linkage_ends hmode h]
    exact ⟨w.anchor.asIssuer, [], [], .nil⟩
  | full =>
    rcases askedOf_of_read hmode h with ⟨hnil, -⟩
      | ⟨p, n, ders, certs, -, -, hasked⟩
    · rw [hnil]
      exact ⟨w.anchor.asIssuer, [], [], .nil⟩
    · exact ⟨w.anchor.asIssuer, w.row p.certificate n ders, certs, hasked⟩

end Statement

-- ================================================ the whole of it

namespace Setup

/-- What holds of a verification that asks `links` while it reads the
payload, then `closing`, and ends in `outcome`. -/
structure Consultation (setup : Setup) (now : UInt64)
    (accepts : AgeRule) (acceptsPcrs : PcrRule) (document : Bytes)
    (answer : Nat → Query → Bool) (count : Nat)
    (links : List Call) (closing : Option Call)
    (outcome : Except Refusal Statement) : Prop where
  /-- First come questions about certificates. -/
  ders : ∀ call ∈ links, ∃ key digest signature,
    call.query = .der key digest signature
  /-- Every answer but the last one is yes. -/
  approved : ∀ call ∈ (links ++ closing.toList).dropLast,
    call.answer = true
  /-- A root past its end is refused unasked, whatever the document. -/
  expired : ¬now < setup.anchor.expiresAt →
    links = [] ∧ closing = none
      ∧ outcome = .error (.rootExpired now setup.anchor.expiresAt)
  /-- Nothing is asked about what is no envelope. -/
  unsplit : ∀ reason, Envelope.read document = .error reason →
    links = [] ∧ closing = none
  /-- Without full mode nothing is asked about certificates. -/
  linkage : setup.mode = .identityLinkage → links = []
  /-- In full mode the certificates asked about are, one after another,
  the entries of the bundle after the first, and then the enclave's
  own, and none is passed over; an answer of no breaks the chain
  there. -/
  full : setup.mode = .full → now < setup.anchor.expiresAt →
    ∀ e, Envelope.read document = .ok e →
      Statement.AskedOf (setup.walk now) accepts e.payload links outcome
  /-- The question about the document itself comes after the payload was
  read, is about the key that its chain led to, and decides together
  with the registers. -/
  closing_some : ∀ call, closing = some call → ∃ e s,
    now < setup.anchor.expiresAt
      ∧ Envelope.read document = .ok e
      ∧ (Statement.read (setup.walk now) accepts e.payload).trace answer
          count = (links, .ok s)
      ∧ call.query = .raw s.enclaveKey
          (sha384 (Envelope.toBeSigned e.payload)) e.signature
      ∧ (call.answer = false → outcome = .error .invalidSignature)
      ∧ (call.answer = true → outcome
          = if acceptsPcrs s.pcrs = true then .ok s
            else .error .pcrRejected)
  /-- In full mode it comes after one question about every certificate
  of the payload, and is about the enclave's own key. -/
  closing_full : setup.mode = .full → ∀ call, closing = some call →
    ∃ e, ∃ p : Payload, ∃ b : Bundle, ∃ inner own,
      Envelope.read document = .ok e ∧ e.payload = p.write
        ∧ p.bundle = b.write
        ∧ Certificate.ReadAs b.entries.tail inner
        ∧ Certificate.read p.certificate = .ok own
        ∧ links = (setup.anchor.asIssuer.questions (inner ++ [own])).map
            (fun query => ⟨query, true⟩)
        ∧ call.query = .raw own.publicKey
            (sha384 (Envelope.toBeSigned p.write)) e.signature
  /-- It is asked whenever the payload was read. -/
  closing_none : closing = none → ∀ e s, now < setup.anchor.expiresAt →
    Envelope.read document = .ok e →
    ((Statement.read (setup.walk now) accepts e.payload).trace answer
      count).2 ≠ .ok s

variable {setup : Setup} {now : UInt64} {accepts : AgeRule}
  {acceptsPcrs : PcrRule} {document : Bytes}
  {answer : Nat → Query → Bool} {count : Nat} {e : Envelope}
  {links : List Call} {outcome : Except Refusal Statement}

/-- A verification that stops before the payload asks nothing. -/
theorem consultation_of_silence
    (hexpired : ¬now < setup.anchor.expiresAt →
      outcome = .error (.rootExpired now setup.anchor.expiresAt))
    (hunread : ∀ e, now < setup.anchor.expiresAt →
      Envelope.read document ≠ .ok e) :
    Consultation setup now accepts acceptsPcrs document answer count []
      none outcome where
  ders := List.forall_mem_nil _
  approved := List.forall_mem_nil _
  expired := fun hnow => ⟨rfl, rfl, hexpired hnow⟩
  unsplit := fun _ _ => ⟨rfl, rfl⟩
  linkage := fun _ => rfl
  full := fun _ hnow e he => absurd he (hunread e hnow)
  closing_some := by
    intro call h
    cases h
  closing_full := by
    intro _ call h
    cases h
  closing_none := by
    intro _ e s hnow he
    exact absurd he (hunread e hnow)

/-- Without full mode the part before the closing question is empty. -/
theorem linkage_of_read (hmode : setup.mode = .identityLinkage)
    (hs : (Statement.read (setup.walk now) accepts e.payload).Ends links
      outcome) : links = [] :=
  have hlinkage : (setup.walk now).mode = .identityLinkage := hmode
  Statement.read_linkage_ends hlinkage hs

/-- The envelope that was read is the only one, so what was asked about
its payload is all there is to say. -/
theorem full_of_read (hmode : setup.mode = .full)
    (he : Envelope.read document = .ok e)
    (hs : (Statement.read (setup.walk now) accepts e.payload).Ends links
      outcome) :
    ∀ e, Envelope.read document = .ok e →
      Statement.AskedOf (setup.walk now) accepts e.payload links
        outcome := by
  intro e' he'
  rw [he] at he'
  cases he'
  have hfull : (setup.walk now).mode = .full := hmode
  exact Statement.askedOf_of_read hfull hs

/-- What was asked before a payload was read to its end in full mode:
one question about each of its certificates, down to the enclave's own,
whose key the statement has. -/
theorem whole_of_read {s : Statement} (hmode : setup.mode = .full)
    (hs : (Statement.read (setup.walk now) accepts e.payload).Ends links
      (.ok s)) :
    ∃ p : Payload, ∃ b : Bundle, ∃ inner own,
      e.payload = p.write ∧ p.bundle = b.write
        ∧ Certificate.ReadAs b.entries.tail inner
        ∧ Certificate.read p.certificate = .ok own
        ∧ links = (setup.anchor.asIssuer.questions (inner ++ [own])).map
            (fun query => ⟨query, true⟩)
        ∧ s.enclaveKey = own.publicKey := by
  obtain ⟨p, key, hpayload, -, hchain, hstatement⟩ :=
    Statement.read_ends_ok_iff.1 hs
  have hfull : (setup.walk now).mode = .full := hmode
  obtain ⟨b, inner, own, hbundle, -, hinner, hown, -, hkey, hlinks⟩ :=
    (chain_full_ends_ok_iff hfull).1 hchain
  refine ⟨p, b, inner, own, hpayload, hbundle, hinner, hown, hlinks, ?_⟩
  rw [hstatement, ← hkey]
  rfl

/-- A payload that cannot be read ends a verification without a
question about the document itself. -/
theorem consultation_of_unread {reason : Refusal}
    (hnow : now < setup.anchor.expiresAt)
    (he : Envelope.read document = .ok e)
    (hs : (Statement.read (setup.walk now) accepts e.payload).Ends links
      (.error reason))
    (hanswered : Answered answer count links) :
    Consultation setup now accepts acceptsPcrs document answer count links
      none (.error reason) := by
  obtain ⟨issuer, row, certs, hasked⟩ :=
    Statement.exists_asked_of_read hs
  constructor
  case ders => exact hasked.der_of_mem
  case approved =>
    rw [Option.toList_none, List.append_nil]
    exact hasked.dropLast
  case expired => exact fun hexpired => absurd hnow hexpired
  case unsplit =>
    intro reason' he'
    rw [he] at he'
    cases he'
  case linkage => exact fun hmode => linkage_of_read hmode hs
  case full => exact fun hmode _ => full_of_read hmode he hs
  case closing_some =>
    intro call h
    cases h
  case closing_full =>
    intro _ call h
    cases h
  case closing_none =>
    intro _ e' s _ he' hread
    rw [he] at he'
    cases he'
    rw [trace_eq_iff.2 ⟨hs, hanswered⟩] at hread
    cases hread

/-- After a payload was read the question about the document itself is
the last one. -/
theorem consultation_of_judged {s : Statement} {reply : Bool}
    (hnow : now < setup.anchor.expiresAt)
    (he : Envelope.read document = .ok e)
    (hs : (Statement.read (setup.walk now) accepts e.payload).Ends links
      (.ok s))
    (hanswered : Answered answer count links) :
    Consultation setup now accepts acceptsPcrs document answer count links
      (some ⟨e.question s.enclaveKey, reply⟩)
      (verdict acceptsPcrs s reply) := by
  obtain ⟨issuer, row, certs, hasked⟩ :=
    Statement.exists_asked_of_read hs
  constructor
  case ders => exact hasked.der_of_mem
  case approved =>
    rw [Option.toList_some, List.dropLast_concat]
    exact hasked.approved
  case expired => exact fun hexpired => absurd hnow hexpired
  case unsplit =>
    intro reason' he'
    rw [he] at he'
    cases he'
  case linkage => exact fun hmode => linkage_of_read hmode hs
  case full =>
    intro hmode _ e' he'
    refine (full_of_read hmode he hs e' he').transfer ?_
    intro reason h
    cases h
  case closing_some =>
    intro call h
    cases h
    refine ⟨e, s, hnow, he, trace_eq_iff.2 ⟨hs, hanswered⟩, ?_, ?_, ?_⟩
    · rw [Envelope.question, Envelope.signedDigest_of_read he]
    · intro hno
      simp only at hno
      rw [hno, verdict_false]
    · intro hyes
      simp only at hyes
      rw [hyes, verdict_true]
  case closing_full =>
    intro hmode call h
    cases h
    obtain ⟨p, b, inner, own, hpayload, hbundle, hinner, hown, hlinks,
      hkey⟩ := whole_of_read hmode hs
    refine ⟨e, p, b, inner, own, he, hpayload, hbundle, hinner, hown,
      hlinks, ?_⟩
    rw [Envelope.question, Envelope.signedDigest_of_read he, hkey, hpayload]
  case closing_none =>
    intro h
    cases h

/-- Every verification, by every judge, asks about certificates first and
about the document at most once and last, stops at the first answer of
no, and ends as the answers say. -/
theorem exists_consultation (setup : Setup) (now : UInt64)
    (accepts : AgeRule) (acceptsPcrs : PcrRule) (document : Bytes)
    (answer : Nat → Query → Bool) (count : Nat) :
    ∃ links closing outcome,
      (setup.verify now accepts acceptsPcrs document).trace answer count
          = (links ++ closing.toList, outcome)
        ∧ Consultation setup now accepts acceptsPcrs document answer count
            links closing outcome := by
  cases htrace : (setup.verify now accepts acceptsPcrs document).trace
    answer count with
  | mk calls outcome =>
    obtain ⟨hends, hanswered⟩ := trace_eq_iff.1 htrace
    cases verify_ends_iff.1 hends with
    | expired hnow =>
      refine ⟨[], none, _, rfl, consultation_of_silence ?_ ?_⟩
      · exact fun _ => rfl
      · exact fun e hlater => absurd hlater hnow
    | unsplit hnow he =>
      refine ⟨[], none, _, rfl, consultation_of_silence ?_ ?_⟩
      · exact fun hexpired => absurd hnow hexpired
      · intro e _ he'
        rw [he] at he'
        cases he'
    | unread hnow he hs =>
      refine ⟨calls, none, _, ?_, consultation_of_unread hnow he hs
        hanswered⟩
      rw [Option.toList_none, List.append_nil]
    | judged hnow he hs reply =>
      refine ⟨_, some _, _, rfl, consultation_of_judged hnow he hs ?_⟩
      exact (answered_append_iff.1 hanswered).1

end Setup

end Attestation
