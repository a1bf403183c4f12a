/-
Where a verification can end. `Stage` lists the four places, each with
the calls and the outcome that a path to it has, and `verify_ends_iff`
says that there are no others. What holds of every verification is then
proved by going through the four, and nothing else needs to look into
the order of the checks.

The last two are one path with two ends: a payload that cannot be read
ends it, with the calls that were made by then, and a payload that was
read leads to one more question, whose answer decides together with the
registers (`verdict`). What follows the payload is brought into this
form first (`sealing_eq`), as one question with a verdict behind it, so
that an end of it is an answer and nothing more (`sealing_ends_iff`).

`verify_ends_ok_iff` is the case that most statements need, the paths to
a success.
-/
import Attestation.Proofs.Signature.Path
import Attestation.Verification

namespace Attestation

open Inquiry

/-- The question whether the document was signed by a key. -/
def Envelope.question (e : Envelope) (key : PublicKey) : Query :=
  .raw key e.signedDigest e.signature

namespace Setup

/-- What follows from the answer about the document's own signature. -/
def verdict (acceptsPcrs : PcrRule) (s : Statement) (answer : Bool) :
    Except Refusal Statement := do
  require (answer = true) Refusal.invalidSignature
  require (acceptsPcrs s.pcrs = true) Refusal.pcrRejected
  return s

theorem verdict_false (acceptsPcrs : PcrRule) (s : Statement) :
    verdict acceptsPcrs s false = .error .invalidSignature :=
  rfl

/-- After a yes the registers decide. -/
theorem verdict_true (acceptsPcrs : PcrRule) (s : Statement) :
    verdict acceptsPcrs s true
      = if acceptsPcrs s.pcrs = true then .ok s
        else .error .pcrRejected := by
  unfold verdict
  rw [require_bind, if_pos rfl, require_bind]
  rfl

/-- The verdict is a success after a yes, if the registers are accepted.
-/
theorem verdict_eq_ok_iff {acceptsPcrs : PcrRule} {s v : Statement}
    {answer : Bool} :
    verdict acceptsPcrs s answer = .ok v
      ↔ answer = true ∧ acceptsPcrs s.pcrs = true ∧ v = s := by
  unfold verdict
  constructor
  · intro h
    obtain ⟨_, hanswer, h⟩ := bind_eq_ok_iff.1 h
    obtain ⟨_, hpcrs, h⟩ := bind_eq_ok_iff.1 h
    cases h
    exact ⟨require_eq_ok_iff.1 hanswer, require_eq_ok_iff.1 hpcrs, rfl⟩
  · intro h
    obtain ⟨hanswer, hpcrs, hv⟩ := h
    refine bind_eq_ok_iff.2 ⟨(), require_eq_ok_iff.2 hanswer, ?_⟩
    refine bind_eq_ok_iff.2 ⟨(), require_eq_ok_iff.2 hpcrs, ?_⟩
    rw [hv]
    rfl

variable {setup : Setup} {now : UInt64} {accepts : AgeRule}
  {acceptsPcrs : PcrRule} {document : Bytes} {calls : List Call}
  {outcome : Except Refusal Statement}

/-- The ends of a verification: the root is past its end, the document
is no envelope, the payload cannot be read, or the question about the
document's own signature was asked and decides together with the
registers. -/
inductive Stage (setup : Setup) (now : UInt64) (accepts : AgeRule)
    (acceptsPcrs : PcrRule) (document : Bytes) :
    List Call → Except Refusal Statement → Prop where
  | expired (hnow : ¬now < setup.anchor.expiresAt) :
      Stage setup now accepts acceptsPcrs document []
        (.error (.rootExpired now setup.anchor.expiresAt))
  | unsplit {reason : Refusal} (hnow : now < setup.anchor.expiresAt)
      (he : Envelope.read document = .error reason) :
      Stage setup now accepts acceptsPcrs document [] (.error reason)
  | unread {e : Envelope} {calls : List Call} {reason : Refusal}
      (hnow : now < setup.anchor.expiresAt)
      (he : Envelope.read document = .ok e)
      (hs : (Statement.read (setup.walk now) accepts e.payload).Ends calls
        (.error reason)) :
      Stage setup now accepts acceptsPcrs document calls (.error reason)
  | judged {e : Envelope} {links : List Call} {s : Statement}
      (hnow : now < setup.anchor.expiresAt)
      (he : Envelope.read document = .ok e)
      (hs : (Statement.read (setup.walk now) accepts e.payload).Ends links
        (.ok s)) (answer : Bool) :
      Stage setup now accepts acceptsPcrs document
        (links ++ [⟨e.question s.enclaveKey, answer⟩])
        (verdict acceptsPcrs s answer)

/-- After the payload one question is left, and what follows from its
answer. -/
theorem sealing_eq {e : Envelope} {s : Statement} :
    ((e.checkSigned s.enclaveKey).bind fun _ =>
        (ofExcept (require (acceptsPcrs s.pcrs = true)
          Refusal.pcrRejected)).bind fun _ => done s)
      = (consult (e.question s.enclaveKey)).bind fun answer =>
          ofExcept (verdict acceptsPcrs s answer) := by
  unfold verdict
  simp only [ofExcept_bind]
  rfl

/-- Behind the payload there is one question, and the outcome is the
verdict on its answer. -/
theorem sealing_ends_iff {e : Envelope} {s : Statement} :
    ((e.checkSigned s.enclaveKey).bind fun _ =>
        (ofExcept (require (acceptsPcrs s.pcrs = true)
          Refusal.pcrRejected)).bind fun _ => done s).Ends calls outcome
      ↔ ∃ answer, calls = [⟨e.question s.enclaveKey, answer⟩]
          ∧ outcome = verdict acceptsPcrs s answer := by
  rw [sealing_eq]
  constructor
  · intro h
    rcases ends_bind_iff.1 h with ⟨reason, h, -⟩
      | ⟨answer, first, later, hfirst, hlater, hcalls⟩
    · obtain ⟨answer, -, ho⟩ := ends_consult_iff.1 h
      cases ho
    · obtain ⟨answer', hask, ho⟩ := ends_consult_iff.1 hfirst
      obtain ⟨hnil, hverdict⟩ := ends_ofExcept_iff.1 hlater
      cases ho
      refine ⟨answer, ?_, hverdict⟩
      rw [hcalls, hask, hnil]
      rfl
  · intro h
    obtain ⟨answer, hcalls, ho⟩ := h
    refine ends_bind_iff.2 (Or.inr ⟨answer, calls, [], ?_, ?_, ?_⟩)
    · exact ends_consult_iff.2 ⟨answer, hcalls, rfl⟩
    · exact ends_ofExcept_iff.2 ⟨rfl, ho⟩
    · rw [List.append_nil]

/-- Every verification ends in one of the stages, and every stage can be
the end of one. -/
theorem verify_ends_iff :
    (setup.verify now accepts acceptsPcrs document).Ends calls outcome
      ↔ Stage setup now accepts acceptsPcrs document calls outcome := by
  unfold verify
  constructor
  · intro h
    rcases ends_ofExcept_bind_iff.1 h with ⟨reason, hroot, hcalls, ho⟩
      | ⟨_, hroot, h⟩
    · rw [require] at hroot
      split at hroot
      · cases hroot
      · rename_i hnow
        cases hroot
        rw [hcalls, ho]
        exact .expired hnow
    have hnow := require_eq_ok_iff.1 hroot
    rcases ends_ofExcept_bind_iff.1 h with ⟨reason, he, hcalls, ho⟩
      | ⟨e, he, h⟩
    · rw [hcalls, ho]
      exact .unsplit hnow he
    rcases ends_bind_iff.1 h with ⟨reason, hs, ho⟩
      | ⟨s, links, later, hs, hlater, hcalls⟩
    · rw [ho]
      exact .unread hnow he hs
    · obtain ⟨answer, hask, ho⟩ := sealing_ends_iff.1 hlater
      rw [hcalls, hask, ho]
      exact .judged hnow he hs answer
  · intro h
    cases h with
    | expired hnow =>
      refine ends_ofExcept_bind_iff.2 (Or.inl ⟨_, ?_, rfl, rfl⟩)
      exact if_neg hnow
    | unsplit hnow he =>
      refine ends_ofExcept_bind_iff.2 (Or.inr ⟨(), ?_, ?_⟩)
      · exact require_eq_ok_iff.2 hnow
      · exact ends_ofExcept_bind_iff.2 (Or.inl ⟨_, he, rfl, rfl⟩)
    | unread hnow he hs =>
      refine ends_ofExcept_bind_iff.2 (Or.inr ⟨(), ?_, ?_⟩)
      · exact require_eq_ok_iff.2 hnow
      refine ends_ofExcept_bind_iff.2 (Or.inr ⟨_, he, ?_⟩)
      exact ends_bind_iff.2 (Or.inl ⟨_, hs, rfl⟩)
    | judged hnow he hs answer =>
      refine ends_ofExcept_bind_iff.2 (Or.inr ⟨(), ?_, ?_⟩)
      · exact require_eq_ok_iff.2 hnow
      refine ends_ofExcept_bind_iff.2 (Or.inr ⟨_, he, ?_⟩)
      refine ends_bind_iff.2 (Or.inr ⟨_, _, _, hs, ?_, rfl⟩)
      exact sealing_ends_iff.2 ⟨answer, rfl, rfl⟩

/-- A verification succeeds when everything before the last question
does, the last answer is yes, and the registers are accepted. -/
theorem verify_ends_ok_iff {v : Statement} :
    (setup.verify now accepts acceptsPcrs document).Ends calls (.ok v)
      ↔ now < setup.anchor.expiresAt ∧ ∃ e links,
          Envelope.read document = .ok e
            ∧ (Statement.read (setup.walk now) accepts e.payload).Ends
                links (.ok v)
            ∧ calls = links ++ [⟨e.question v.enclaveKey, true⟩]
            ∧ acceptsPcrs v.pcrs = true := by
  rw [verify_ends_iff]
  constructor
  · intro h
    obtain ⟨outcome, ho⟩ : ∃ outcome, outcome = Except.ok v := ⟨_, rfl⟩
    rw [← ho] at h
    cases h with
    | expired hnow => cases ho
    | unsplit hnow he => cases ho
    | unread hnow he hs => cases ho
    | judged hnow he hs answer =>
      obtain ⟨hanswer, hpcrs, hv⟩ := verdict_eq_ok_iff.1 ho
      subst hanswer hv
      exact ⟨hnow, _, _, he, hs, rfl, hpcrs⟩
  · intro h
    obtain ⟨hnow, e, links, he, hs, hcalls, hpcrs⟩ := h
    have hv := verdict_eq_ok_iff.2 ⟨rfl, hpcrs, rfl⟩
    rw [hcalls, ← hv]
    exact .judged hnow he hs true

end Setup

end Attestation
