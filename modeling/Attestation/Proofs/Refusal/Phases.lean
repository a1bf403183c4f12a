/-
Which step of a verification a refusal comes from. The reasons fall into
five phases, one for each step, and every rule refuses only with reasons
of the phase that it is part of. So the reason tells which step failed
(`fails_of_refused`): what is wrong with a payload, say, is never taken
for registers that are not accepted.

This is worth a proof because reasons are made in many places and
reported at one. A reader of dates, of lengths or of certificates has
its own faults, and they come out of the verification wrapped in a
reason; a reason from the wrong family would send whoever reads it to
the wrong part of the document.

`RefusesIn` says that a rule refuses in one phase only, and passes
through `demand`, `require` and a sequence of two rules; the same holds
of inquiries, over all answers. There is one lemma for each rule, in the
shape of the rule, up to those of the envelope and the payload, and
their proofs do nothing but follow the rules. Where a rule is changed,
the lemma about it is the one to change. Only two of them are
recursions, the search for a common name and the walk over the entries,
and go by induction.

The phases of a verification are then told apart by where it can end, of
which there are four (`Stage`): the reason of the refusal has one phase,
and each end allows only reasons of its own. The last end has two
phases, the signature and the registers, and they are told apart by the
verdict.
-/
import Attestation.Proofs.Document.Fields
import Attestation.Proofs.Verification.Stages

namespace Attestation

open Inquiry

/-- The steps of a verification, in their order. -/
inductive Phase where
  | root
  | envelope
  | payload
  | signature
  | registers
deriving DecidableEq

/-- The step that a reason belongs to. -/
def Refusal.phase : Refusal → Phase
  | .rootExpired _ _ => .root
  | .malformedEnvelope _ => .envelope
  | .unexpectedField _ | .staleTimestamp _ _ | .trailingOrMissingData _ _
  | .malformedBundle _ | .chainBroken _ | .notACertificate _
  | .commonNameNotFound | .invalidTimestamp _ | .certificateExpired _ _
  | .certificateNotActive _ _ => .payload
  | .invalidSignature => .signature
  | .pcrRejected => .registers

-- ======================================================== two relations

section

variable {α β : Type} {phase : Phase} {reason : Refusal}

/-- The rule refuses only with reasons of one phase. -/
def RefusesIn (phase : Phase) (x : Except Refusal α) : Prop :=
  ∀ reason, x = .error reason → reason.phase = phase

namespace RefusesIn

/-- A value is no refusal. -/
theorem ok (value : α) : RefusesIn phase (.ok value) := by
  intro reason h
  cases h

/-- A reason of the phase may be given. -/
theorem error (h : reason.phase = phase) :
    RefusesIn phase (.error reason : Except Refusal α) := by
  intro reason' h'
  cases h'
  exact h

/-- A reason of the phase may be given for what is absent. -/
theorem demand {value? : Option α} (h : reason.phase = phase) :
    RefusesIn phase (demand value? reason) := by
  cases value? with
  | some value => exact .ok value
  | none => exact .error h

/-- A reason of the phase may be given for a condition that is not met.
-/
theorem require {condition : Prop} [Decidable condition]
    (h : reason.phase = phase) :
    RefusesIn phase (require condition reason) := by
  unfold Attestation.require
  split
  · exact .ok ()
  · exact .error h

/-- Two rules of a phase, one after another. -/
theorem bind {x : Except Refusal α} {f : α → Except Refusal β}
    (hx : RefusesIn phase x) (hf : ∀ value, RefusesIn phase (f value)) :
    RefusesIn phase (x >>= f) := by
  cases x with
  | ok value => exact hf value
  | error reason => exact .error (hx reason rfl)

end RefusesIn

/-- The inquiry refuses only with reasons of one phase, whatever the
answers. -/
def Inquiry.RefusesIn (phase : Phase) (x : Inquiry α) : Prop :=
  ∀ calls outcome, x.Ends calls outcome → Attestation.RefusesIn phase outcome

namespace Inquiry.RefusesIn

/-- An inquiry that is done has not refused. -/
theorem done (value : α) : (done value).RefusesIn phase := by
  intro calls outcome h
  rw [(ends_done_iff.1 h).2]
  exact .ok value

/-- An inquiry that is a rule refuses as the rule does. -/
theorem ofExcept {x : Except Refusal α}
    (hx : Attestation.RefusesIn phase x) :
    (ofExcept x).RefusesIn phase := by
  intro calls outcome h
  rw [(ends_ofExcept_iff.1 h).2]
  exact hx

/-- A question is no refusal. -/
theorem consult (query : Query) : (consult query).RefusesIn phase := by
  intro calls outcome h
  obtain ⟨answer, -, houtcome⟩ := ends_consult_iff.1 h
  rw [houtcome]
  exact .ok answer

/-- Two inquiries of a phase, one after another. -/
theorem bind {x : Inquiry α} {f : α → Inquiry β}
    (hx : x.RefusesIn phase) (hf : ∀ value, (f value).RefusesIn phase) :
    (x.bind f).RefusesIn phase := by
  intro calls outcome h
  rcases ends_bind_iff.1 h with ⟨reason, hends, houtcome⟩
    | ⟨value, first, later, -, hends, -⟩
  · rw [houtcome]
    exact .error (hx calls _ hends reason rfl)
  · exact hf value later outcome hends

end Inquiry.RefusesIn

end

-- ======================================================== certificates

section

variable {r : Reader}

namespace UtcTime

variable {raw : UtcTime}

/-- A wrong digit is a fault of the payload. -/
theorem pair_refusesIn {i j : Fin 13} :
    RefusesIn .payload (raw.pair i j) := by
  have hdigit (b : UInt8) : RefusesIn .payload (digit b) := by
    unfold digit
    split
    · exact .ok _
    · exact .error rfl
  unfold pair
  refine .bind (hdigit _) fun tens => ?_
  exact .bind (hdigit _) fun ones => .ok _

/-- A date that does not exist is a fault of the payload. -/
theorem seconds_refusesIn : RefusesIn .payload raw.seconds := by
  refine .bind ?_ fun t => .ok _
  unfold dateTime
  refine .bind (.require rfl) fun _ => ?_
  refine .bind pair_refusesIn fun year => ?_
  refine .bind pair_refusesIn fun month => ?_
  refine .bind pair_refusesIn fun day => ?_
  refine .bind pair_refusesIn fun hour => ?_
  refine .bind pair_refusesIn fun minute => ?_
  refine .bind pair_refusesIn fun second => ?_
  refine .bind (.require rfl) fun _ => ?_
  refine .bind (.require rfl) fun _ => ?_
  refine .bind (.require rfl) fun _ => ?_
  exact .bind (.require rfl) fun _ => .ok _

end UtcTime

namespace CommonName

theorem nextSet_refusesIn : RefusesIn .payload (nextSet r) := by
  refine .bind (.demand rfl) fun start => ?_
  exact .bind (.demand rfl) fun length => .demand rfl

theorem textAfter_refusesIn : RefusesIn .payload (textAfter r) := by
  refine .bind (.demand rfl) fun tag => ?_
  refine .bind (.demand rfl) fun length => ?_
  exact .bind (.demand rfl) fun text => .ok _

/-- By induction along the search: a name is looked for in one SET after
another. -/
theorem search_refusesIn : RefusesIn .payload (search r) := by
  fun_induction search r with
  | case1 r hempty => exact .error rfl
  | case2 r hmore refusal hset =>
    exact .error (nextSet_refusesIn refusal hset)
  | case3 r hmore content next hset r' hopening =>
    exact textAfter_refusesIn
  | case4 r hmore content next hset hopening ih => exact ih

end CommonName

namespace Certificate

variable {tag : UInt8} {missing length cut : CertificateFault}

theorem element_refusesIn :
    RefusesIn .payload (element tag missing length cut r) := by
  refine .bind (.demand rfl) fun start => ?_
  exact .bind (.demand rfl) fun n => .demand rfl

theorem shortElement_refusesIn :
    RefusesIn .payload (shortElement tag missing length cut r) := by
  refine .bind (.demand rfl) fun start => ?_
  exact .bind (.demand rfl) fun n => .demand rfl

/-- A period that cannot be read is a fault of the payload. -/
theorem validityPeriod_refusesIn :
    RefusesIn .payload (validityPeriod r) := by
  refine .bind (.demand rfl) fun header => ?_
  refine .bind (.demand rfl) fun notBefore => ?_
  refine .bind (.demand rfl) fun header => ?_
  refine .bind (.demand rfl) fun notAfter => ?_
  refine .bind UtcTime.seconds_refusesIn fun notBefore => ?_
  exact .bind UtcTime.seconds_refusesIn fun notAfter => .ok _

theorem keyAtEnd_refusesIn {info : Bytes} :
    RefusesIn .payload (keyAtEnd info) := by
  refine .bind (.demand rfl) fun key => ?_
  exact .bind (.require rfl) fun _ => .ok key

/-- All faults of a body are faults of the payload. -/
theorem readBody_refusesIn {content : Bytes} :
    RefusesIn .payload (readBody content) := by
  refine .bind (.demand rfl) fun version => ?_
  refine .bind shortElement_refusesIn fun serial => ?_
  refine .bind shortElement_refusesIn fun algorithm => ?_
  refine .bind element_refusesIn fun issuer => ?_
  refine .bind CommonName.search_refusesIn fun issuerName => ?_
  refine .bind validityPeriod_refusesIn fun validity => ?_
  refine .bind element_refusesIn fun subject => ?_
  refine .bind CommonName.search_refusesIn fun subjectName => ?_
  refine .bind element_refusesIn fun info => ?_
  exact .bind keyAtEnd_refusesIn fun key => .ok _

/-- All faults of a certificate are faults of the payload. -/
theorem read_refusesIn {der : Bytes} : RefusesIn .payload (read der) := by
  have hbits (content : Bytes) : RefusesIn .payload (wholeBits content) := by
    unfold wholeBits
    split
    · exact .ok _
    · exact .error rfl
  refine .bind (.demand rfl) fun start => ?_
  refine .bind (.demand rfl) fun length => ?_
  refine .bind (.require rfl) fun _ => ?_
  refine .bind (.demand rfl) fun start => ?_
  refine .bind (.demand rfl) fun length => ?_
  refine .bind (.demand rfl) fun content => ?_
  refine .bind readBody_refusesIn fun body => ?_
  refine .bind element_refusesIn fun algorithm => ?_
  refine .bind element_refusesIn fun bits => ?_
  refine .bind (hbits _) fun signature => ?_
  exact .bind (.require rfl) fun _ => .ok _

end Certificate

-- =========================================================== the chain

namespace Walk

variable {w : Walk} {index : Nat} {issuer : Issuer}
  {der certificate cabundle : Bytes}

/-- A certificate that does not follow is a fault of the payload too. -/
theorem link_refusesIn :
    (w.link index issuer der).RefusesIn .payload := by
  refine .bind (.ofExcept Certificate.read_refusesIn) fun c => ?_
  refine .bind (.ofExcept (.require rfl)) fun _ => ?_
  refine .bind (.ofExcept ?validity) fun _ => ?_
  case validity => exact .bind (.require rfl) fun _ => .require rfl
  refine .bind ?issued fun _ => .done c.subject
  case issued =>
    unfold checkIssued
    cases w.mode with
    | identityLinkage => exact .done ()
    | full =>
      refine .bind (.consult _) fun answer => ?_
      exact .ofExcept (.require rfl)

/-- A certificate that is not the root is one too, in the root's place.
-/
theorem extend_refusesIn :
    (w.extend index issuer der).RefusesIn .payload := by
  cases index with
  | succ index => exact link_refusesIn
  | zero =>
    refine .bind (.ofExcept ?_) fun _ => .done issuer
    unfold confirmRoot
    cases w.mode with
    | identityLinkage => exact .ok ()
    | full =>
      exact .bind Certificate.read_refusesIn fun c => .require rfl

/-- By induction on the entries: all that can be found in a bundle is a
fault of the payload. -/
theorem entries_refusesIn {left : Nat} :
    (w.entries index issuer r left).RefusesIn .payload := by
  induction left generalizing index issuer r with
  | zero => exact .done (issuer, r)
  | succ left ih =>
    refine .bind (.ofExcept ?entry) fun der => ?_
    case entry =>
      refine .bind (.demand rfl) fun header => ?_
      refine .bind (.require rfl) fun _ => ?_
      exact .bind (.demand rfl) fun length => .demand rfl
    exact .bind extend_refusesIn fun issuer => ih

/-- All that can be found in a chain is a fault of the payload. -/
theorem chain_refusesIn :
    (w.chain certificate cabundle).RefusesIn .payload := by
  refine .bind (.ofExcept ?count) fun count => ?_
  case count =>
    refine .bind (.demand rfl) fun header => ?_
    exact .bind (.require rfl) fun _ => .ok _
  refine .bind entries_refusesIn fun last => ?_
  refine .bind ?leaf fun issuer => .done _
  case leaf =>
    unfold leaf
    cases w.mode with
    | identityLinkage => exact .done _
    | full => exact link_refusesIn

end Walk

-- ========================================================= the payload

namespace Statement

variable {f : Field} {w : Walk} {accepts : AgeRule}

/-- A field that is missed is a fault of the payload. -/
theorem expect_refusesIn : RefusesIn .payload (expect f r) := by
  refine .demand ?_
  split
  · rfl
  · rfl

theorem readModuleId_refusesIn : RefusesIn .payload (readModuleId r) := by
  refine .bind expect_refusesIn fun start => ?_
  refine .bind (.demand rfl) fun length => ?_
  refine .bind (.demand rfl) fun raw => ?_
  dsimp only
  split
  · exact .ok _
  · exact .error rfl

theorem readTimestamp_refusesIn :
    RefusesIn .payload (readTimestamp r) := by
  refine .bind expect_refusesIn fun start => ?_
  exact .bind (.demand rfl) fun n => .ok _

/-- A field of the registers is missed if it is too short or opens
otherwise. -/
theorem readPcrs_refusesIn : RefusesIn .payload (readPcrs r) := by
  refine .bind ?window fun pcrs => ?_
  case window =>
    unfold Pcrs.read
    split
    · split
      · exact .ok _
      · exact .error rfl
    · exact .error rfl
  exact .bind (.demand rfl) fun r => .ok _

theorem readCertificate_refusesIn :
    RefusesIn .payload (readCertificate r) := by
  refine .bind expect_refusesIn fun start => ?_
  exact .bind (.demand rfl) fun length => .demand rfl

/-- A header that is no length is a fault of the payload. -/
theorem lengthAfter_refusesIn {header : UInt8} :
    RefusesIn .payload (lengthAfter f header r) := by
  unfold lengthAfter
  split
  · exact .ok _
  split
  · exact .demand rfl
  split
  · exact .demand rfl
  · exact .error rfl

/-- An optional value that cannot be read is a fault of the payload. -/
theorem readOptional_refusesIn : RefusesIn .payload (readOptional f r) := by
  rw [readOptional_eq]
  refine .bind expect_refusesIn fun start => ?_
  refine .bind (.demand rfl) fun header => ?_
  dsimp only
  split
  · exact .ok _
  refine .bind lengthAfter_refusesIn fun length => ?_
  exact .bind (.demand rfl) fun data => .ok _

/-- Also a document that is too old is refused with its payload. -/
theorem readFront_refusesIn {now : UInt64} :
    RefusesIn .payload (readFront accepts now r) := by
  refine .bind (.demand rfl) fun start => ?_
  refine .bind readModuleId_refusesIn fun moduleId => ?_
  refine .bind expect_refusesIn fun digest => ?_
  refine .bind readTimestamp_refusesIn fun timestamp => ?_
  refine .bind (.require rfl) fun _ => ?_
  refine .bind readPcrs_refusesIn fun pcrs => ?_
  exact .bind readCertificate_refusesIn fun certificate => .ok _

/-- Whatever is wrong with the bundle is wrong with the payload. -/
theorem readBundle_refusesIn {certificate : Bytes} :
    (readBundle w certificate r).RefusesIn .payload := by
  refine .bind (.ofExcept expect_refusesIn) fun start => ?_
  refine .bind Walk.chain_refusesIn fun key => ?_
  exact .bind (.ofExcept (.demand rfl)) fun r => .done _

/-- Bytes behind the last field are a fault of the payload. -/
theorem readBack_refusesIn : RefusesIn .payload (readBack r) := by
  refine .bind readOptional_refusesIn fun publicKey => ?_
  refine .bind readOptional_refusesIn fun userData => ?_
  refine .bind readOptional_refusesIn fun nonce => ?_
  exact .bind (.require rfl) fun _ => .ok _

/-- A payload is refused for faults of its own. -/
theorem read_refusesIn {payload : Bytes} :
    (read w accepts payload).RefusesIn .payload := by
  refine .bind (.ofExcept readFront_refusesIn) fun front => ?_
  refine .bind readBundle_refusesIn fun key => ?_
  exact .bind (.ofExcept readBack_refusesIn) fun back => .done _

end Statement

end

-- ======================================================== the envelope

/-- An envelope is refused for faults of its own. -/
theorem Envelope.read_refusesIn {document : Bytes} :
    RefusesIn .envelope (read document) := by
  refine .bind (.demand rfl) fun start => ?_
  refine .bind (.demand rfl) fun lengthHeader => ?_
  refine .bind (.demand rfl) fun payload => ?_
  refine .bind (.demand rfl) fun start => ?_
  refine .bind (.demand rfl) fun signature => ?_
  exact .bind (.require rfl) fun _ => .ok _

-- ==================================================== the verification

namespace Setup

variable {setup : Setup} {now : UInt64} {accepts : AgeRule}
  {acceptsPcrs : PcrRule} {document : Bytes} {calls : List Call}
  {reason : Refusal}

/-- A step of a verification fails for a reason, after `calls` were
made. -/
def Fails (setup : Setup) (now : UInt64) (accepts : AgeRule)
    (acceptsPcrs : PcrRule) (document : Bytes) (calls : List Call)
    (reason : Refusal) : Phase → Prop
  | .root => ¬now < setup.anchor.expiresAt
  | .envelope => Envelope.read document = .error reason
  | .payload => ∃ e, Envelope.read document = .ok e
      ∧ (Statement.read (setup.walk now) accepts e.payload).Ends calls
          (.error reason)
  | .signature => ∃ e links s, Envelope.read document = .ok e
      ∧ (Statement.read (setup.walk now) accepts e.payload).Ends links
          (.ok s)
      ∧ calls = links ++ [⟨e.question s.enclaveKey, false⟩]
  | .registers => ∃ e links s, Envelope.read document = .ok e
      ∧ (Statement.read (setup.walk now) accepts e.payload).Ends links
          (.ok s)
      ∧ calls = links ++ [⟨e.question s.enclaveKey, true⟩]
      ∧ acceptsPcrs s.pcrs = false

/-- The phase of the reason tells which step of a refused verification
failed. -/
theorem fails_of_refused
    (h : (setup.verify now accepts acceptsPcrs document).Ends calls
      (.error reason)) :
    setup.Fails now accepts acceptsPcrs document calls reason
      reason.phase := by
  generalize houtcome : Except.error reason = outcome at h
  -- the stage knows which step ended it, its reason knows the phase
  cases verify_ends_iff.1 h with
  | expired hnow =>
    cases houtcome
    exact hnow
  | unsplit hnow he =>
    cases houtcome
    rw [Envelope.read_refusesIn reason he]
    exact he
  | @unread e _ _ hnow he hs =>
    cases houtcome
    rw [Statement.read_refusesIn _ _ hs reason rfl]
    exact ⟨e, he, hs⟩
  | @judged e links s hnow he hs answer =>
    cases answer with
    | false =>
      cases houtcome
      exact ⟨e, links, s, he, hs, rfl⟩
    | true =>
      rw [verdict_true] at houtcome
      split at houtcome
      · cases houtcome
      · rename_i hpcrs
        cases houtcome
        exact ⟨e, links, s, he, hs, rfl, Bool.eq_false_iff.2 hpcrs⟩

end Setup

end Attestation
