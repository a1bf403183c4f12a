/-
Paths through an inquiry. `x.Ends calls outcome` says that `x` may ask
exactly the questions in `calls`, be answered as they say, and then end
in `outcome`. Nothing is said about who answers, so a fact about all
paths holds for every judge, also for one that changes its mind between
questions.

A trace is the one path whose answers are the judge's (`trace_eq_iff`),
and a run the end of such a path when the judge is a function of the
question (`run_eq_iff`). Paths pass through a sequence of two inquiries
by concatenation (`ends_bind_iff`). So a statement about what a
verification does is proved of its paths, function by function, and a
judge comes in at the very end.

Working with traces directly would mean to carry the judge and the
number of questions asked so far through every lemma, where they say
nothing. On paths the answers are just part of the data, and both kinds
of judges, those that see the number and those that do not, are told
apart only by `Answered`.

Rules that ask nothing are a part of every inquiry, and `ofExcept` puts
them there. A path through such a rule and then an inquiry is a path
through the inquiry alone, or ends before it (`ends_ofExcept_bind_iff`);
that is the form in which most functions are taken apart.
-/
import Attestation.Signature.Inquiry

namespace Attestation

namespace Inquiry

/-- The inquiry may end in `outcome` after the questions and answers in
`calls`. -/
inductive Ends {α : Type} :
    Inquiry α → List Call → Except Refusal α → Prop where
  | done (value : α) : Ends (done value) [] (.ok value)
  | refused (reason : Refusal) : Ends (refused reason) [] (.error reason)
  | ask (query : Query) (next : Bool → Inquiry α) (answer : Bool)
      {later : List Call} {outcome : Except Refusal α}
      (h : Ends (next answer) later outcome) :
      Ends (ask query next) (⟨query, answer⟩ :: later) outcome

variable {α β : Type} {calls : List Call}

/-- A sequence of two rules that ask nothing asks nothing. -/
theorem ofExcept_bind (x : Except Refusal α) (f : α → Except Refusal β) :
    ofExcept (x >>= f) = (ofExcept x).bind fun value => ofExcept (f value) := by
  cases x <;> rfl

-- ==================================================== single inquiries

/-- What is done asks nothing. -/
theorem ends_done_iff {value : α} {outcome : Except Refusal α} :
    (done value).Ends calls outcome
      ↔ calls = [] ∧ outcome = .ok value := by
  constructor
  · intro h
    cases h
    exact ⟨rfl, rfl⟩
  · intro h
    rw [h.1, h.2]
    exact .done value

/-- What is refused asks nothing. -/
theorem ends_refused_iff {reason : Refusal}
    {outcome : Except Refusal α} :
    (refused reason).Ends calls outcome
      ↔ calls = [] ∧ outcome = .error reason := by
  constructor
  · intro h
    cases h
    exact ⟨rfl, rfl⟩
  · intro h
    rw [h.1, h.2]
    exact .refused reason

/-- A rule that asks nothing ends in its own outcome. -/
theorem ends_ofExcept_iff {x : Except Refusal α}
    {outcome : Except Refusal α} :
    (ofExcept x).Ends calls outcome ↔ calls = [] ∧ outcome = x := by
  cases x with
  | ok value => exact ends_done_iff
  | error reason => exact ends_refused_iff

/-- A question is asked once, and either answer may come. -/
theorem ends_consult_iff {query : Query} {outcome : Except Refusal Bool} :
    (consult query).Ends calls outcome
      ↔ ∃ answer, calls = [⟨query, answer⟩] ∧ outcome = .ok answer := by
  constructor
  · intro h
    cases h with
    | ask _ _ answer h =>
      cases h
      exact ⟨answer, rfl, rfl⟩
  · intro h
    obtain ⟨answer, hcalls, houtcome⟩ := h
    rw [hcalls, houtcome]
    exact .ask query .done answer (.done answer)

-- ========================================================= composing

/-- A refusal of the first inquiry ends a sequence of two. -/
theorem Ends.bind_error {x : Inquiry α} {f : α → Inquiry β}
    {reason : Refusal} (h : x.Ends calls (.error reason)) :
    (x.bind f).Ends calls (.error reason) := by
  induction x generalizing calls with
  | done value => cases h
  | refused reason' =>
    cases h
    exact .refused reason
  | ask query next ih =>
    cases h with
    | ask _ _ answer h => exact .ask query _ answer (ih answer h)

/-- After the first inquiry is done, the second goes on. -/
theorem Ends.bind_ok {x : Inquiry α} {f : α → Inquiry β} {value : α}
    {first later : List Call} {outcome : Except Refusal β}
    (h : x.Ends first (.ok value)) (h' : (f value).Ends later outcome) :
    (x.bind f).Ends (first ++ later) outcome := by
  induction x generalizing first with
  | done value' =>
    cases h
    exact h'
  | refused reason => cases h
  | ask query next ih =>
    cases h with
    | ask _ _ answer h => exact .ask query _ answer (ih answer h)

/-- Every path through a sequence of two inquiries ends with the
refusal of the first, or is a path through the first followed by one
through the second. -/
theorem ends_bind_iff {x : Inquiry α} {f : α → Inquiry β}
    {outcome : Except Refusal β} :
    (x.bind f).Ends calls outcome
      ↔ (∃ reason, x.Ends calls (.error reason)
            ∧ outcome = .error reason)
        ∨ ∃ value first later, x.Ends first (.ok value)
            ∧ (f value).Ends later outcome ∧ calls = first ++ later := by
  constructor
  · intro h
    induction x generalizing calls with
    | done value => exact Or.inr ⟨value, [], calls, .done value, h, rfl⟩
    | refused reason =>
      cases h
      exact Or.inl ⟨reason, .refused reason, rfl⟩
    | ask query next ih =>
      cases h with
      | ask _ _ answer h =>
        rcases ih answer h with ⟨reason, hx, ho⟩
          | ⟨value, first, later, hx, hf, hcalls⟩
        · exact Or.inl ⟨reason, .ask query next answer hx, ho⟩
        · refine Or.inr ⟨value, ⟨query, answer⟩ :: first, later,
            .ask query next answer hx, hf, ?_⟩
          rw [hcalls, List.cons_append]
  · intro h
    rcases h with ⟨reason, hx, ho⟩ | ⟨value, first, later, hx, hf, hcalls⟩
    · rw [ho]
      exact hx.bind_error
    · rw [hcalls]
      exact hx.bind_ok hf

/-- A sequence is done when both inquiries are. -/
theorem ends_bind_ok_iff {x : Inquiry α} {f : α → Inquiry β}
    {result : β} :
    (x.bind f).Ends calls (.ok result)
      ↔ ∃ value first later, x.Ends first (.ok value)
          ∧ (f value).Ends later (.ok result)
          ∧ calls = first ++ later := by
  rw [ends_bind_iff]
  constructor
  · intro h
    rcases h with ⟨reason, -, ho⟩ | h
    · cases ho
    · exact h
  · exact Or.inr

/-- A rule that asks nothing leaves the questions to what follows
it. -/
theorem ends_ofExcept_bind_iff {x : Except Refusal α}
    {f : α → Inquiry β} {outcome : Except Refusal β} :
    ((ofExcept x).bind f).Ends calls outcome
      ↔ (∃ reason, x = .error reason ∧ calls = []
            ∧ outcome = .error reason)
        ∨ ∃ value, x = .ok value ∧ (f value).Ends calls outcome := by
  cases x with
  | ok value =>
    constructor
    · intro h
      exact Or.inr ⟨value, rfl, h⟩
    · intro h
      rcases h with ⟨reason, he, -⟩ | ⟨value', he, h⟩
      · cases he
      · cases he
        exact h
  | error reason =>
    constructor
    · intro h
      exact Or.inl ⟨reason, rfl, ends_refused_iff.1 h⟩
    · intro h
      rcases h with ⟨reason', he, h⟩ | ⟨value, he, -⟩
      · cases he
        exact ends_refused_iff.2 h
      · cases he

/-- A success comes after a rule that succeeds. -/
theorem ends_ofExcept_bind_ok_iff {x : Except Refusal α}
    {f : α → Inquiry β} {result : β} :
    ((ofExcept x).bind f).Ends calls (.ok result)
      ↔ ∃ value, x = .ok value ∧ (f value).Ends calls (.ok result) := by
  rw [ends_ofExcept_bind_iff]
  constructor
  · intro h
    rcases h with ⟨reason, -, -, ho⟩ | h
    · cases ho
    · exact h
  · exact Or.inr

-- ========================================================= answering

/-- The answers in `calls` are those of a judge that was asked `count`
questions before. -/
def Answered (answer : Nat → Query → Bool) :
    (count : Nat) → List Call → Prop
  | _, [] => True
  | count, call :: later =>
    call.answer = answer count call.query
      ∧ Answered answer (count + 1) later

/-- Later questions are answered with the earlier ones counted. -/
theorem answered_append_iff {answer : Nat → Query → Bool} {count : Nat}
    {first later : List Call} :
    Answered answer count (first ++ later)
      ↔ Answered answer count first
        ∧ Answered answer (count + first.length) later := by
  induction first generalizing count with
  | nil => exact (and_iff_right trivial).symm
  | cons call first ih =>
    rw [List.cons_append, Answered, Answered, ih, and_assoc,
      List.length_cons, Nat.add_right_comm, Nat.add_assoc]

/-- The trace is a path. -/
theorem ends_trace (answer : Nat → Query → Bool) (count : Nat)
    (x : Inquiry α) :
    x.Ends (x.trace answer count).1 (x.trace answer count).2 := by
  induction x generalizing count with
  | done value => exact .done value
  | refused reason => exact .refused reason
  | ask query next ih =>
    exact .ask query next (answer count query)
      (ih (answer count query) (count + 1))

/-- A judge's trace has the judge's answers. -/
theorem answered_trace (answer : Nat → Query → Bool) (count : Nat)
    (x : Inquiry α) : Answered answer count (x.trace answer count).1 := by
  induction x generalizing count with
  | done value => trivial
  | refused reason => trivial
  | ask query next ih =>
    exact ⟨rfl, ih (answer count query) (count + 1)⟩

/-- The trace is the one path whose answers are the judge's. -/
theorem trace_eq_iff {answer : Nat → Query → Bool} {count : Nat}
    {x : Inquiry α} {outcome : Except Refusal α} :
    x.trace answer count = (calls, outcome)
      ↔ x.Ends calls outcome ∧ Answered answer count calls := by
  constructor
  · intro h
    have hends := ends_trace answer count x
    have hanswered := answered_trace answer count x
    rw [h] at hends hanswered
    exact ⟨hends, hanswered⟩
  · intro h
    obtain ⟨hends, hanswered⟩ := h
    induction hends generalizing count with
    | done value => rfl
    | refused reason => rfl
    | ask query next reply _ ih =>
      obtain ⟨hreply, hlater⟩ := hanswered
      simp only at hreply
      rw [trace, ← hreply, ih hlater]

/-- An inquiry ends in an outcome when one of its paths does whose
answers are the judge's. -/
theorem trace_snd_eq_iff {answer : Nat → Query → Bool} {count : Nat}
    {x : Inquiry α} {outcome : Except Refusal α} :
    (x.trace answer count).2 = outcome
      ↔ ∃ calls, x.Ends calls outcome ∧ Answered answer count calls := by
  constructor
  · intro h
    exact ⟨(x.trace answer count).1, trace_eq_iff.1 (by rw [← h])⟩
  · intro h
    obtain ⟨calls, h⟩ := h
    rw [trace_eq_iff.2 h]

/-- A judge that is a function of the question answers each call by
it. -/
theorem answered_const_iff {answer : Query → Bool} {count : Nat} :
    Answered (fun _ => answer) count calls
      ↔ ∀ call ∈ calls, call.answer = answer call.query := by
  induction calls generalizing count with
  | nil => simp [Answered]
  | cons call later ih => rw [Answered, ih, List.forall_mem_cons]

/-- A run ends in an outcome when one of its paths does whose answers
are those of the function. -/
theorem run_eq_iff {answer : Query → Bool} {x : Inquiry α}
    {outcome : Except Refusal α} :
    x.run answer = outcome
      ↔ ∃ calls, x.Ends calls outcome
          ∧ ∀ call ∈ calls, call.answer = answer call.query := by
  rw [← trace_const answer 0 x, trace_snd_eq_iff]
  simp only [answered_const_iff]

end Inquiry

end Attestation
