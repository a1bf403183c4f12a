/-
Rules that need signatures checked, kept apart from how signatures are
checked. An inquiry either is finished (with a value, or with a reason
to refuse) or asks one question about a signature and goes on with the
answer.

`run` answers the questions by a function of the question. `trace`
answers them by a function that may also depend on how many questions
came before, and keeps the list of questions and answers. The lemmas at
the end say how both pass through a sequence of two inquiries, and that
a trace with answers that ignore the count ends as the run does.
-/
import Attestation.Hash.Sha384
import Attestation.Refusal.Basic
import Attestation.Signature.Ecdsa

namespace Attestation

/-- A question: is this a signature of the digest by the key? -/
inductive Query where
  /-- The signature is in the raw encoding. -/
  | raw (key : PublicKey) (digest : Digest384) (signature : RawSignature)
  /-- The signature is in DER. -/
  | der (key : PublicKey) (digest : Digest384) (signature : Bytes)
deriving DecidableEq

/-- A question that was asked, and its answer. -/
structure Call where
  query : Query
  answer : Bool
deriving DecidableEq

/-- The answer that ECDSA over P-384 gives. -/
def Query.holds : Query → Bool
  | .raw key digest signature => Ecdsa.verifyRaw key digest signature
  | .der key digest signature => Ecdsa.verifyDer key digest signature

/-- A rule that may ask questions about signatures. -/
inductive Inquiry (α : Type) where
  | done (value : α)
  | refused (reason : Refusal)
  | ask (query : Query) (next : Bool → Inquiry α)

namespace Inquiry

variable {α β : Type}

-- ======================================================== composing

/-- One inquiry after another. -/
def bind (x : Inquiry α) (f : α → Inquiry β) : Inquiry β :=
  match x with
  | done value => f value
  | refused reason => refused reason
  | ask query next => ask query fun answer => (next answer).bind f

instance : Monad Inquiry where
  pure := done
  bind := bind

/-- A rule that asks nothing. -/
def ofExcept : Except Refusal α → Inquiry α
  | .ok value => done value
  | .error reason => refused reason

instance : MonadLift (Except Refusal) Inquiry where
  monadLift := ofExcept

def consult (query : Query) : Inquiry Bool :=
  ask query done

-- ======================================================== answering

/-- The outcome when every question gets the answer of a function. -/
def run (answer : Query → Bool) : Inquiry α → Except Refusal α
  | done value => .ok value
  | refused reason => .error reason
  | ask query next => run answer (next (answer query))

/-- The questions asked, and the outcome, when the question asked after
`count` others gets the answer of `answer count`. -/
def trace (answer : Nat → Query → Bool) (count : Nat) :
    Inquiry α → List Call × Except Refusal α
  | done value => ([], .ok value)
  | refused reason => ([], .error reason)
  | ask query next =>
    let reply := answer count query
    let later := trace answer (count + 1) (next reply)
    (⟨query, reply⟩ :: later.1, later.2)

-- ========================================================= the laws

@[simp] theorem bind_eq (x : Inquiry α) (f : α → Inquiry β) :
    x >>= f = x.bind f :=
  rfl

@[simp] theorem pure_eq (value : α) :
    (pure value : Inquiry α) = done value :=
  rfl

theorem bind_done (x : Inquiry α) : x.bind done = x := by
  induction x with
  | done value => rfl
  | refused reason => rfl
  | ask query next ih => simp [bind, ih]

/-- Sequences may be bracketed either way. -/
theorem bind_assoc {γ : Type} (x : Inquiry α) (f : α → Inquiry β)
    (g : β → Inquiry γ) :
    (x.bind f).bind g = x.bind fun value => (f value).bind g := by
  induction x with
  | done value => rfl
  | refused reason => rfl
  | ask query next ih => simp [bind, ih]

@[simp] theorem run_ofExcept (answer : Query → Bool)
    (x : Except Refusal α) : run answer (ofExcept x) = x := by
  cases x <;> rfl

/-- A run passes through a sequence. -/
theorem run_bind (answer : Query → Bool) (x : Inquiry α)
    (f : α → Inquiry β) :
    run answer (x.bind f)
      = (run answer x).bind fun value => run answer (f value) := by
  induction x with
  | done value => rfl
  | refused reason => rfl
  | ask query next ih => simp [bind, run, ih]

/-- A trace passes through a sequence: the calls are appended, and the
answers to the second part count on from those to the first. -/
theorem trace_bind (answer : Nat → Query → Bool) (count : Nat)
    (x : Inquiry α) (f : α → Inquiry β) :
    trace answer count (x.bind f)
      = let first := trace answer count x
        match first.2 with
        | .error reason => (first.1, .error reason)
        | .ok value =>
          let second := trace answer (count + first.1.length) (f value)
          (first.1 ++ second.1, second.2) := by
  induction x generalizing count with
  | done value => simp [bind, trace]
  | refused reason => rfl
  | ask query next ih =>
    simp only [bind, trace, ih, List.length_cons, List.cons_append]
    split
    · rfl
    · simp [Nat.add_assoc, Nat.add_comm]

/-- A judge that ignores the count comes to what a run comes to. -/
theorem trace_const (answer : Query → Bool) (count : Nat)
    (x : Inquiry α) :
    (trace (fun _ => answer) count x).2 = run answer x := by
  induction x generalizing count with
  | done value => rfl
  | refused reason => rfl
  | ask query next ih => simp [trace, run, ih]

end Inquiry

end Attestation
