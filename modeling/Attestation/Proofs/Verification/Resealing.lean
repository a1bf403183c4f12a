/-
What the signature of a document can decide: whether it is accepted, and
nothing else. Up to the question about it a verification looks only at
the payload (`inspectPayload`), and what follows from a yes is settled
by then. So documents with the same payload come to the same, but for
those that are refused for their signatures
(`signature_only_decides_verdict`).

A document is resealed by putting other bytes in place of its last 96
(`reseal`), which an envelope always has, as the signature is the part
behind everything that has a length. What was split before is split
after it, with the same payload.

The outcome is then a function of three things: what the payload comes
to, the answer to one question about the signature, and the verdict in
case of a yes (`run_verify_of_read`). The first and the last do not have
the signature in them. `behind` is the form in which the second is put
in front of the last; the refusal for a signature cannot come from
anywhere else, since refusals while the payload is read belong to other
phases (`phase_of_inspectPayload`).

This holds for every judge that is a function of the question. One that
counts its questions could answer two documents differently for other
reasons than their signatures.
-/
import Attestation.Proofs.Document.Signed
import Attestation.Proofs.Refusal.Phases
import Attestation.Proofs.Verification.Interval

namespace Attestation

open Inquiry

-- ====================================================== the signature

namespace Envelope

variable {document : Bytes} {e : Envelope}

/-- The question about a document is one about its signed bytes as a
whole. -/
theorem question_eq (e : Envelope) (key : PublicKey) :
    e.question key = .raw key (sha384 e.signedBytes) e.signature := by
  rw [question, signedDigest_eq]

/-- A document with its last 96 bytes replaced. -/
def reseal (document : Bytes) (signature : RawSignature) : Bytes :=
  document.take (document.length - 96) ++ signature.toList

/-- A document with other bytes for its signature is split as before. -/
theorem read_reseal (h : read document = .ok e) (other : RawSignature) :
    read (reseal document other) = .ok { e with signature := other } := by
  obtain ⟨hsize, hheader, hdocument⟩ := read_eq_ok_iff.1 h
  refine read_eq_ok_iff.2 ⟨hsize, hheader, ?_⟩
  have hfront : document.length - 96
      = (opening ++ Bytes.ofNat 2 e.payload.length ++ e.payload
        ++ signatureHeader).length := by
    rw [hdocument, assemble, List.length_append,
      e.signature.length_toList, Nat.add_sub_cancel]
  rw [reseal, hfront, hdocument, assemble, List.take_left]
  rfl

end Envelope

namespace Setup

variable {setup : Setup} {now : UInt64} {accepts : AgeRule}
  {acceptsPcrs : PcrRule} {document : Bytes} {e : Envelope}
  {answer : Query → Bool}

-- ============================================================ the verdict

/-- An outcome that stands behind a question about a signature: after a
no the signature is invalid. -/
def behind (answer : Query → Bool) (query : Query)
    (outcome : Except Refusal Statement) : Except Refusal Statement :=
  if answer query = true then outcome else .error .invalidSignature

/-- What follows from a yes is settled without the signature. -/
theorem verdict_eq_behind (acceptsPcrs : PcrRule) (s : Statement)
    (query : Query) :
    verdict acceptsPcrs s (answer query)
      = behind answer query (verdict acceptsPcrs s true) := by
  unfold behind
  cases answer query <;> rfl

/-- After a yes nothing is refused for the signature. -/
theorem verdict_true_ne (acceptsPcrs : PcrRule) (s : Statement) :
    verdict acceptsPcrs s true ≠ .error .invalidSignature := by
  rw [verdict_true]
  split <;> simp

-- ======================================================== the payload

/-- A verification up to the question about the document's own
signature: it looks at the root and at the payload. -/
def inspectPayload (setup : Setup) (now : UInt64) (accepts : AgeRule)
    (payload : Bytes) : Inquiry Statement := do
  require (now < setup.anchor.expiresAt)
    (Refusal.rootExpired now setup.anchor.expiresAt)
  Statement.read (setup.walk now) accepts payload

/-- What is refused before the question about the signature is refused
for the root or for the payload. -/
theorem phase_of_inspectPayload {payload : Bytes} {reason : Refusal}
    (h : (setup.inspectPayload now accepts payload).run answer
      = .error reason) :
    reason.phase = .root ∨ reason.phase = .payload := by
  obtain ⟨calls, h, -⟩ := run_eq_iff.1 h
  rcases ends_ofExcept_bind_iff.1 h with ⟨reason', hroot, -, hsame⟩
    | ⟨_, -, h⟩
  · cases hsame
    exact Or.inl (RefusesIn.require rfl reason hroot)
  · exact Or.inr (Statement.read_refusesIn _ _ h reason rfl)

/-- A document that splits is verified by looking at its payload, asking
one question about its signature, and drawing the verdict. -/
theorem verify_eq_of_read (h : Envelope.read document = .ok e) :
    setup.verify now accepts acceptsPcrs document
      = (setup.inspectPayload now accepts e.payload).bind fun s =>
          (consult (e.question s.enclaveKey)).bind fun answer =>
            ofExcept (verdict acceptsPcrs s answer) := by
  simp only [← sealing_eq]
  unfold verify inspectPayload
  rw [h]
  simp only [liftM, monadLift, MonadLift.monadLift, bind_eq, bind_assoc]
  rfl

/-- The outcome, as what the payload comes to, and then the question
about the signature with the verdict behind it. -/
theorem run_verify_of_read (h : Envelope.read document = .ok e) :
    (setup.verify now accepts acceptsPcrs document).run answer
      = (setup.inspectPayload now accepts e.payload).run answer
          >>= fun s => behind answer
            (.raw s.enclaveKey (sha384 e.signedBytes) e.signature)
            (verdict acceptsPcrs s true) := by
  rw [verify_eq_of_read h, run_bind]
  simp only [run_bind, run_ofExcept, ← verdict_eq_behind,
    Envelope.question_eq]
  rfl

/-- The signature of a document decides only about the verdict, for
every judge of signatures that is a function of the question.

Whatever the last 96 bytes of an accepted document are replaced by, the
document is still split, and it is accepted with the same statement if
the judge takes those bytes for a signature of the same signed bytes by
the same key, and else refused for its signature.

Two documents with the same payload are refused for the same reason,
which is none about a signature or about registers, or they differ only
in the judge's answers about their signatures: there is one key, and one
outcome that both come to unless the judge says no. -/
theorem signature_only_decides_verdict :
    (∀ (setup : Setup) now accepts acceptsPcrs answer document v,
      (setup.verify now accepts acceptsPcrs document).run answer = .ok v →
      ∃ e, Envelope.read document = .ok e ∧ ∀ other,
        (setup.verify now accepts acceptsPcrs
            (Envelope.reseal document other)).run answer
          = behind answer (.raw v.enclaveKey (sha384 e.signedBytes) other)
              (.ok v))
      ∧ ∀ (setup : Setup) now accepts acceptsPcrs answer document
          document' e e',
        Envelope.read document = .ok e →
        Envelope.read document' = .ok e' → e.payload = e'.payload →
        (∃ reason, (reason.phase = .root ∨ reason.phase = .payload)
          ∧ (setup.verify now accepts acceptsPcrs document).run answer
            = .error reason
          ∧ (setup.verify now accepts acceptsPcrs document').run answer
            = .error reason)
        ∨ ∃ key outcome, outcome ≠ .error .invalidSignature
          ∧ (setup.verify now accepts acceptsPcrs document).run answer
            = behind answer (.raw key (sha384 e.signedBytes) e.signature)
                outcome
          ∧ (setup.verify now accepts acceptsPcrs document').run answer
            = behind answer (.raw key (sha384 e.signedBytes) e'.signature)
                outcome := by
  refine ⟨fun setup now accepts acceptsPcrs answer document v h => ?_,
    fun setup now accepts acceptsPcrs answer document document' e e' he he'
      hpayload => ?_⟩
  · obtain ⟨calls, hends, -⟩ := run_eq_iff.1 h
    obtain ⟨-, e, -, he, -⟩ := verify_ends_ok_iff.1 hends
    refine ⟨e, he, fun other => ?_⟩
    rw [run_verify_of_read he] at h
    rw [run_verify_of_read (Envelope.read_reseal he other)]
    obtain ⟨s, hs, hv⟩ := bind_eq_ok_iff.1 h
    -- the first run tells what a yes comes to
    have hyes : verdict acceptsPcrs s true = .ok v := by
      unfold behind at hv
      split at hv
      · exact hv
      · cases hv
    obtain ⟨-, -, rfl⟩ := verdict_eq_ok_iff.1 hyes
    show ((setup.inspectPayload now accepts e.payload).run answer >>= _) = _
    rw [hs]
    show behind answer _ (verdict acceptsPcrs v true) = _
    rw [hyes]
    rfl
  · have hsame := (Envelope.signedBytes_eq_iff he he').2 hpayload
    rw [run_verify_of_read he, run_verify_of_read he', ← hpayload, ← hsame]
    cases hs : (setup.inspectPayload now accepts e.payload).run answer with
    | error reason =>
      exact Or.inl ⟨reason, phase_of_inspectPayload hs, rfl, rfl⟩
    | ok s =>
      exact Or.inr ⟨s.enclaveKey, verdict acceptsPcrs s true,
        verdict_true_ne acceptsPcrs s, rfl, rfl⟩

end Setup

-- ===================================================== the small chain

namespace SmallChain

/-- A judge that takes only one signature for the document's own. -/
def judge : Query → Bool
  | .raw _ _ other => other == signature
  | .der _ _ _ => true

theorem run_verify_judge :
    (setup.verify 1700000000 .any .any document).run judge
      = .ok (payload.statement own.publicKey) := by
  have hnow : (1700000000 : UInt64) < setup.anchor.expiresAt := by decide
  have hlength : payload.write.length < 65536 := by decide +kernel
  have he := Envelope.read_assemble hlength signature
  have hchain := chain_ends (w := setup.walk 1700000000) rfl rfl rfl
  have hread : (Statement.read (setup.walk 1700000000) .any
      payload.write).Ends calls (.ok (payload.statement own.publicKey)) :=
    Statement.read_ends_ok_iff.2
      ⟨payload, own.publicKey, rfl, rfl, hchain, rfl⟩
  have hends : (setup.verify 1700000000 .any .any document).Ends _
      (.ok (payload.statement own.publicKey)) :=
    Setup.verify_ends_ok_iff.2 ⟨hnow, _, calls, he, hread, rfl, rfl⟩
  rw [← trace_const judge 0]
  exact congrArg Prod.snd (trace_eq_iff.2 ⟨hends, rfl, rfl, rfl, trivial⟩)

end SmallChain

/-- The judge above takes nothing but zeros for the signature of the
small document, so with other bytes in their place the document is
refused for its signature. Both documents have the same payload, and
come to the same but for the answers about their signatures. -/
theorem Setup.signature_only_decides_verdict_smallChain :
    (SmallChain.setup.verify 1700000000 .any .any
          SmallChain.document).run SmallChain.judge
        = .ok (SmallChain.payload.statement SmallChain.own.publicKey)
      ∧ (SmallChain.setup.verify 1700000000 .any .any
            (Envelope.reseal SmallChain.document (.ofNat 96 1))).run
              SmallChain.judge
          = .error .invalidSignature
      ∧ ∃ e e' key outcome, Envelope.read SmallChain.document = .ok e
        ∧ Envelope.read (Envelope.reseal SmallChain.document (.ofNat 96 1))
          = .ok e'
        ∧ e.payload = e'.payload
        ∧ behind SmallChain.judge
            (.raw key (sha384 e.signedBytes) e.signature) outcome
          = .ok (SmallChain.payload.statement SmallChain.own.publicKey)
        ∧ behind SmallChain.judge
            (.raw key (sha384 e.signedBytes) e'.signature) outcome
          = .error .invalidSignature := by
  obtain ⟨hreseal, hpair⟩ := signature_only_decides_verdict
  have hrun := SmallChain.run_verify_judge
  obtain ⟨e, he, hother⟩ := hreseal _ _ _ _ _ _ _ hrun
  have hresealed : (SmallChain.setup.verify 1700000000 .any .any
      (Envelope.reseal SmallChain.document (.ofNat 96 1))).run
        SmallChain.judge = .error .invalidSignature := by
    rw [hother]
    rfl
  refine ⟨hrun, hresealed, ?_⟩
  have he' := Envelope.read_reseal he (.ofNat 96 1)
  rcases hpair SmallChain.setup 1700000000 .any .any SmallChain.judge _ _ _ _
      he he' rfl with ⟨reason, -, hrefused, -⟩ | ⟨key, outcome, -, h, h'⟩
  · rw [hrun] at hrefused
    cases hrefused
  · exact ⟨e, _, key, outcome, he, he', rfl, h.symm.trans hrun,
      h'.symm.trans hresealed⟩

end Attestation
