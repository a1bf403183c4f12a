/-
A whole verification on a machine, and that nothing goes wrong in it.

Nothing is assumed of the document, not even that its length is a word:
the envelope is read from its start on, no place in it is ever above the
bytes that were announced (`Cursor.At`), and what is left of it is never
counted. The payload is as short as a two-byte length says, which is
what the modules before this one need.

Where no operation fails, a machine asks what the library's rules ask
and comes to what they come to (`trace_verify`), so everything that is
proved of them holds on a machine as well. The converse reading is what
the theorem is for: whatever document is handed to it, a verification
comes to a statement or to a refusal, and never to a fault.

The question about the document's signature, the digests and the judge
are outside of this. A judge is a function of questions here as
everywhere, and hashing has no operation that depends on what is hashed
for its range.
-/
import Attestation.Proofs.Bytes.Digits
import Attestation.Proofs.Machine.Record
import Attestation.Verification

namespace Attestation

namespace Machine

open Cursor

/-- What is found, or the fault of an envelope that lacks it. -/
def envelopePart {α : Type} (x : Search α) (fault : EnvelopeFault) :
    Run α :=
  want x (return .malformedEnvelope fault)

def envelope (document : Bytes) : Run Envelope := do
  let c ← envelopePart ((Cursor.ofBytes document).eat Envelope.opening)
    .header
  let (lengthHeader, c) ← envelopePart (c.fixed 2) .payloadLength
  let (payload, c) ← envelopePart (c.take lengthHeader.toNat) .payloadCut
  let c ← envelopePart (c.eat Envelope.signatureHeader) .signatureHeader
  let (signature, c) ← envelopePart (c.fixed 96) .signatureCut
  require (c.isEmpty = true) (Refusal.malformedEnvelope .trailingBytes)
  return ⟨lengthHeader, payload, signature⟩

/-- Verifies a document at a moment. The rule on the registers may be
any, the ready-made ones among them: those compare bytes and compute
nothing. -/
def verify (setup : Setup) (now : UInt64) (policy : AgePolicy)
    (acceptsPcrs : PcrRule) (document : Bytes) : Consult Statement := do
  require (now < setup.anchor.expiresAt)
    (Refusal.rootExpired now setup.anchor.expiresAt)
  let e ← envelope document
  let stated ← statement (setup.walk now) policy e.payload
  e.checkSigned stated.enclaveKey
  require (acceptsPcrs stated.pcrs = true) Refusal.pcrRejected
  return stated

-- ==================================================== without faults

variable {α β : Type}

/-- What an envelope lacks is refused with the same fault. -/
theorem Agrees.envelopePart {R : α → β → Prop} {x : Search α}
    {y : Option β} {fault : EnvelopeFault} (hx : Finds R x y) :
    Agrees R (envelopePart x fault) (demand y (.malformedEnvelope fault)) :=
  Agrees.want hx rfl

/-- The number that two bytes spell. -/
theorem toNat_two_lt (header : FixedBytes 2) : header.toNat < 65536 := by
  have hlt := Bytes.bigEndian_lt header.toList
  rw [header.length_toList] at hlt
  exact hlt

/-- A document of any length is taken apart without a fault, and its
payload is short. -/
theorem envelope_agrees (document : Bytes) :
    Agrees (fun e e' => e = e' ∧ e.payload.length < 65536)
      (envelope document) (Envelope.read document) := by
  have hword : wordSize = 2 ^ 64 := rfl
  unfold envelope Envelope.read
  refine (Agrees.envelopePart ((At.ofBytes document).eat (by decide))).bind
    fun c r h => ?_
  refine (Agrees.envelopePart (h.fixed (by decide))).bind_with
    fun lengthHeader c r h => ?_
  have hlength := toNat_two_lt lengthHeader
  have hopening : Envelope.opening.length = 8 := rfl
  have hheader : Envelope.signatureHeader.length = 2 := rfl
  refine (Agrees.envelopePart (h.take (by omega))).bind_with
    fun payload c r h => ?_
  refine (Agrees.envelopePart (h.2.eat (by omega))).bind fun c r hat => ?_
  refine (Agrees.envelopePart (hat.fixed (by omega))).bind_with
    fun signature c r hat => ?_
  dsimp only
  rw [hat.isEmpty_eq]
  refine Agrees.plain_bind fun _ _ => ?_
  refine .ok ⟨rfl, ?_⟩
  show payload.length < 65536
  rw [h.1]
  exact hlength

/-- A verification goes the same way on a machine, question by question.
-/
theorem verify_lockstep (setup : Setup) (now : UInt64)
    (policy : AgePolicy) (acceptsPcrs : PcrRule) (document : Bytes) :
    Lockstep Eq (verify setup now policy acceptsPcrs document)
      (setup.verify now policy.rule acceptsPcrs document) := by
  unfold verify Setup.verify
  refine Lockstep.rule_bind fun _ _ => ?_
  refine (Lockstep.lift (envelope_agrees document)).bind fun e e' h => ?_
  obtain ⟨hsame, hsmall⟩ := h
  cases hsame
  refine (statement_lockstep hsmall).bind fun stated _ hstated => ?_
  cases hstated
  refine (Lockstep.plain (e.checkSigned stated.enclaveKey)).bind
    fun _ _ _ => ?_
  refine Lockstep.rule_bind fun _ _ => ?_
  exact .done rfl

/-- For every setup, moment, policy, rule on the registers and document:
no operation of a machine and none of its branches for what cannot
happen ever fails, whatever answers its questions get. And to every
judge it puts the questions of the library's verification, and comes to
the same statement or the same refusal. -/
theorem trace_verify (setup : Setup) (now : UInt64) (policy : AgePolicy)
    (acceptsPcrs : PcrRule) (document : Bytes) :
    (∀ calls fault,
        ¬(verify setup now policy acceptsPcrs document).run.Ends calls
          (.ok (.error fault)))
      ∧ ∀ answer count,
          (verify setup now policy acceptsPcrs document).run.trace
              answer count
            = (((setup.verify now policy.rule acceptsPcrs document).trace
                  answer count).1,
                ((setup.verify now policy.rule acceptsPcrs document).trace
                  answer count).2.map Except.ok) := by
  have hlockstep := verify_lockstep setup now policy acceptsPcrs document
  constructor
  · intro calls fault
    exact hlockstep.no_fault fault
  · intro answer count
    exact hlockstep.trace_eq answer count

end Machine

end Attestation
