/-
What the two rules of a caller do to a verification: they only filter.
The rule about the age is asked in the middle, as soon as the time has
been read, and the one about the registers at the very end, so what a
rule refuses may hide what would have failed later, but nothing else
changes. `Filters` says so, and `filters_run_verify` proves it of every
verification.

`verify_eq` is the normal form behind it: the steps before the first
rule (`approach`) and those between the two (`inspect`), none of which
depends on a rule. To get there the reading of a payload is cut in two,
after the time has been read (`readHead`, `readRest`); the cut is an
equation between two sequences of the same steps, by associativity.

With the steps apart there are three cases. If the approach fails, no
rule was asked, and all rules come to the same. If the first rule
refuses, nothing else was looked at, and the refusal is for the age,
whatever would have come. Otherwise only the last step is left to
differ. That the time a rule was asked about is the time in the
statement (`timestamp_of_inspect`) is what lets the filter be told in
terms of the accepted statement.
-/
import Attestation.Proofs.Refusal.Phases

namespace Attestation

open Inquiry

-- ====================================================== parts of reading

namespace Statement

/-- What is known of a payload when its age is judged: the name of the
module, the time, and where the next field starts. -/
structure Head where
  moduleId : String
  timestamp : UInt64
  rest : Reader

/-- Reads the fields up to the time. -/
def readHead (payload : Bytes) : Except Refusal Head := do
  let r ← demand ((Reader.ofBytes payload).pass? mapHeader)
    (.unexpectedField .mapHeader)
  let (moduleId, r) ← readModuleId r
  let r ← expect .digest r
  let (timestamp, r) ← readTimestamp r
  return ⟨moduleId, timestamp, r⟩

/-- Reads the fields after the time. -/
def readRest (w : Walk) (head : Head) : Inquiry Statement := do
  let (pcrs, r) ← readPcrs head.rest
  let (certificate, r) ← readCertificate r
  let (key, r) ← readBundle w certificate r
  let back ← readBack r
  return ofParts ⟨head.moduleId, head.timestamp, pcrs, certificate⟩ key
    back

/-- A payload is read in two parts, with the rule about the age between
them. -/
theorem read_eq (w : Walk) (accepts : AgeRule) (payload : Bytes) :
    read w accepts payload = (do
      let head ← readHead payload
      require (accepts head.timestamp w.now = true)
        (Refusal.staleTimestamp head.timestamp w.now)
      readRest w head) := by
  unfold read readHead readFront readRest
  -- a row of steps inside a row is the same steps in one row
  simp only [liftM, monadLift, MonadLift.monadLift, bind_eq,
    ofExcept_bind, bind_assoc]
  rfl

/-- The statement has the time that was judged. -/
theorem timestamp_of_readRest {w : Walk} {head : Head} {s : Statement}
    {answer : Query → Bool} (h : (readRest w head).run answer = .ok s) :
    s.timestamp = head.timestamp := by
  obtain ⟨calls, h, -⟩ := run_eq_iff.1 h
  obtain ⟨⟨pcrs, r⟩, -, h⟩ := ends_ofExcept_bind_ok_iff.1 h
  obtain ⟨⟨certificate, r⟩, -, h⟩ := ends_ofExcept_bind_ok_iff.1 h
  obtain ⟨⟨key, r⟩, first, later, -, h, -⟩ := ends_bind_ok_iff.1 h
  obtain ⟨back, -, h⟩ := ends_ofExcept_bind_ok_iff.1 h
  rw [Except.ok.inj (ends_done_iff.1 h).2]
  rfl

end Statement

namespace Setup

variable {setup : Setup} {now : UInt64} {accepts : AgeRule}
  {acceptsPcrs : PcrRule} {document : Bytes} {answer : Query → Bool}

-- ======================================================= the normal form

/-- What a verification does before it judges the age. -/
def approach (setup : Setup) (now : UInt64) (document : Bytes) :
    Except Refusal (Envelope × Statement.Head) := do
  require (now < setup.anchor.expiresAt)
    (Refusal.rootExpired now setup.anchor.expiresAt)
  let e ← Envelope.read document
  let head ← Statement.readHead e.payload
  return (e, head)

/-- What it does after that, before it judges the registers. -/
def inspect (setup : Setup) (now : UInt64) (e : Envelope)
    (head : Statement.Head) : Inquiry Statement := do
  let s ← Statement.readRest (setup.walk now) head
  e.checkSigned s.enclaveKey
  return s

/-- The two rules around what does not depend on them. -/
theorem verify_eq (setup : Setup) (now : UInt64) (accepts : AgeRule)
    (acceptsPcrs : PcrRule) (document : Bytes) :
    setup.verify now accepts acceptsPcrs document = (do
      let (e, head) ← setup.approach now document
      require (accepts head.timestamp now = true)
        (Refusal.staleTimestamp head.timestamp now)
      let s ← setup.inspect now e head
      require (acceptsPcrs s.pcrs = true) Refusal.pcrRejected
      return s) := by
  unfold verify approach inspect
  simp only [Statement.read_eq, liftM, monadLift, MonadLift.monadLift,
    bind_eq, ofExcept_bind, bind_assoc]
  rfl

/-- What fails before the time is known fails under all rules. -/
theorem run_verify_of_approach_error {reason : Refusal}
    (h : setup.approach now document = .error reason) :
    (setup.verify now accepts acceptsPcrs document).run answer
      = .error reason := by
  rw [verify_eq, h]
  rfl

/-- Once the time is known the first rule decides whether anything else
is looked at, and the second has the last word. -/
theorem run_verify_of_approach {e : Envelope} {head : Statement.Head}
    (h : setup.approach now document = .ok (e, head)) :
    (setup.verify now accepts acceptsPcrs document).run answer
      = if accepts head.timestamp now = true then
          (setup.inspect now e head).run answer >>= fun s =>
            if acceptsPcrs s.pcrs = true then .ok s
            else .error .pcrRejected
        else .error (.staleTimestamp head.timestamp now) := by
  rw [verify_eq, h]
  simp only [liftM, monadLift, MonadLift.monadLift, bind_eq, run_bind,
    run_ofExcept]
  -- with the answers given, what is left is a row of plain steps
  show (require _ _ >>= fun _ => (setup.inspect now e head).run answer
    >>= fun s => require _ _ >>= fun _ => .ok s) = _
  simp only [require_bind]

/-- Without rules what lies between them decides alone. -/
theorem run_verify_any {e : Envelope} {head : Statement.Head}
    (h : setup.approach now document = .ok (e, head)) :
    (setup.verify now .any .any document).run answer
      = (setup.inspect now e head).run answer := by
  have hage : AgeRule.any head.timestamp now = true := rfl
  rw [run_verify_of_approach h, if_pos hage]
  cases (setup.inspect now e head).run answer <;> rfl

/-- The time in the statement is the one that the rule was asked about.
-/
theorem timestamp_of_inspect {e : Envelope} {head : Statement.Head}
    {s : Statement} (h : (setup.inspect now e head).run answer = .ok s) :
    s.timestamp = head.timestamp := by
  unfold inspect at h
  simp only [bind_eq, run_bind] at h
  obtain ⟨s', hs, h⟩ := bind_eq_ok_iff.1 h
  obtain ⟨_, -, h⟩ := bind_eq_ok_iff.1 h
  rw [← Except.ok.inj h]
  exact Statement.timestamp_of_readRest hs

-- ============================================================ filtering

/-- What two rules make of the outcome that a verification would have
without them. -/
structure Filters (now : UInt64) (accepts : AgeRule)
    (acceptsPcrs : PcrRule) (bare filtered : Except Refusal Statement) :
    Prop where
  /-- What would be accepted is judged by its time, then by its
  registers, and nothing in it changes. -/
  judged : ∀ v, bare = .ok v →
    filtered = if accepts v.timestamp now = false then
        .error (.staleTimestamp v.timestamp now)
      else if acceptsPcrs v.pcrs = false then .error .pcrRejected
      else .ok v
  /-- What would be refused is refused, for the same reason or for its
  age, and never for its registers. -/
  refused : ∀ reason, bare = .error reason →
    filtered ≠ .error .pcrRejected
      ∧ (filtered = .error reason ∨ ∃ timestamp,
          accepts timestamp now = false
            ∧ filtered = .error (.staleTimestamp timestamp now))

/-- No rule makes acceptable what is refused without it. -/
theorem Filters.eq_ok_iff {bare filtered : Except Refusal Statement}
    (h : Filters now accepts acceptsPcrs bare filtered) {v : Statement} :
    filtered = .ok v
      ↔ bare = .ok v ∧ accepts v.timestamp now = true
        ∧ acceptsPcrs v.pcrs = true := by
  constructor
  · intro hok
    cases hbare : bare with
    | error reason =>
      rcases (h.refused reason hbare).2 with hsame | ⟨timestamp, -, hstale⟩
      · rw [hsame] at hok
        cases hok
      · rw [hstale] at hok
        cases hok
    | ok v' =>
      rw [h.judged v' hbare] at hok
      by_cases hage : accepts v'.timestamp now = false
      · rw [if_pos hage] at hok
        cases hok
      by_cases hpcrs : acceptsPcrs v'.pcrs = false
      · rw [if_neg hage, if_pos hpcrs] at hok
        cases hok
      rw [if_neg hage, if_neg hpcrs] at hok
      cases hok
      exact ⟨rfl, eq_true_of_ne_false hage, eq_true_of_ne_false hpcrs⟩
  · intro hall
    obtain ⟨hbare, hage, hpcrs⟩ := hall
    rw [h.judged v hbare, hage, hpcrs]
    rfl

/-- Without a rule about registers nothing is refused for them. -/
theorem run_verify_ne_pcrRejected :
    (setup.verify now accepts .any document).run answer
      ≠ .error .pcrRejected := by
  intro h
  obtain ⟨calls, hends, -⟩ := run_eq_iff.1 h
  obtain ⟨e, links, s, -, -, -, hpcrs⟩ := fails_of_refused hends
  cases hpcrs

/-- The rules of a caller only filter. A verification under two rules
comes to what it would come to without them, unless one of them rejects
the time or the registers; so whatever it accepts is accepted without
rules, with the same statement. -/
theorem filters_run_verify (setup : Setup) (now : UInt64)
    (accepts : AgeRule) (acceptsPcrs : PcrRule) (answer : Query → Bool)
    (document : Bytes) :
    Filters now accepts acceptsPcrs
        ((setup.verify now .any .any document).run answer)
        ((setup.verify now accepts acceptsPcrs document).run answer)
      ∧ ∀ v,
        (setup.verify now accepts acceptsPcrs document).run answer = .ok v
          ↔ (setup.verify now .any .any document).run answer = .ok v
            ∧ accepts v.timestamp now = true
            ∧ acceptsPcrs v.pcrs = true := by
  have hfilters : Filters now accepts acceptsPcrs
      ((setup.verify now .any .any document).run answer)
      ((setup.verify now accepts acceptsPcrs document).run answer) := by
    have hnever (reason : Refusal)
        (h : (setup.verify now .any .any document).run answer
          = .error reason) :
        (.error reason : Except Refusal Statement)
          ≠ .error .pcrRejected := by
      rw [← h]
      exact run_verify_ne_pcrRejected
    cases happroach : setup.approach now document with
    | error reason =>
      -- no rule was asked
      rw [run_verify_of_approach_error happroach] at hnever ⊢
      rw [run_verify_of_approach_error happroach]
      constructor
      case judged =>
        intro v hv
        cases hv
      case refused =>
        intro reason' h
        cases h
        exact ⟨hnever reason rfl, Or.inl rfl⟩
    | ok found =>
      obtain ⟨e, head⟩ := found
      rw [run_verify_any happroach] at hnever ⊢
      rw [run_verify_of_approach happroach]
      constructor
      case judged =>
        intro v hv
        rw [hv, timestamp_of_inspect hv]
        cases accepts head.timestamp now with
        | false => rfl
        | true =>
          show (if acceptsPcrs v.pcrs = true then _ else _)
            = if acceptsPcrs v.pcrs = false then _ else _
          cases acceptsPcrs v.pcrs <;> rfl
      case refused =>
        intro reason h
        rw [h]
        cases hage : accepts head.timestamp now with
        | false =>
          refine ⟨?_, Or.inr ⟨head.timestamp, hage, rfl⟩⟩
          intro hstale
          cases hstale
        | true => exact ⟨hnever reason h, Or.inl rfl⟩
  exact ⟨hfilters, fun v => hfilters.eq_ok_iff⟩

end Setup

end Attestation
