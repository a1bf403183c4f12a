/-
What a verifier in use answers depends on little of its past: for each
of its four parts on the installation of it that came last, and on
nothing else. `Parts.latest` reads these four values off the steps
taken, each from its own kind of step and with its own value to start
from, and `Setup.freshReply` is the reply of a verifier that has just
been made of a setup and four parts and was asked nothing yet. Neither
takes a step of a session, so `run_depends_on_latest` compares sessions
with something else than sessions.

One equation about a step carries all of it. `parts_step` says what a
step makes of the parts: what it installs in the place it installs it
in, and everything else as it was. From there `parts_after` goes by
induction on the steps from the last one back, since it is the last
installation that counts; an induction from the front would have to
carry along what may still be replaced.

Beside its parts a session counts the questions it has asked its judge,
and a verification moves this count on. So two sessions with the same
parts need not be the same, and a verification does leave something
behind. A judge whose answers depend on the question alone cannot see
the count (`Step.IsPlain`, `IsPlain.after`), which is why the replies do
not show it (`reply_after`). That a verification changes no later reply
is then a matter of the parts again: it installs nothing, so the parts
after the steps are the same with it and without it
(`run_after_of_latest`).
-/
import Attestation.Session
import Attestation.Proofs.Verification.Interval

namespace Attestation

-- ===================================================== installations

namespace Step

/-- The clock that a step installs, if it installs one. -/
def clock? : Step → Option UInt64
  | .setClock now => some now
  | _ => none

/-- The judge that a step installs, if it installs one. -/
def judge? : Step → Option (Nat → Query → Bool)
  | .setJudge judge => some judge
  | _ => none

/-- The rule about ages that a step installs, if it installs one. -/
def ageRule? : Step → Option AgeRule
  | .setAgeRule rule => some rule
  | _ => none

/-- The rule about registers that a step installs, if it installs
one. -/
def pcrRule? : Step → Option PcrRule
  | .setPcrRule rule => some rule
  | _ => none

/-- The step verifies a document, under whichever rules. -/
def IsVerification : Step → Prop
  | .verify _ | .verifyUnder _ _ _ => True
  | _ => False

/-- If the step installs a judge, it is one whose answers depend on the
question alone. -/
def IsPlain : Step → Prop
  | .setJudge judge => ∃ answer, judge = fun _ => answer
  | _ => True

/-- What was installed last of some kind, or what there was from the
start if none was. -/
def latest {α : Type} (installed? : Step → Option α) (initial : α)
    (steps : List Step) : α :=
  (steps.filterMap installed?).getLast?.getD initial

/-- A further step replaces what was installed before it, if it installs
anything of the kind. -/
theorem latest_append_singleton {α : Type} (installed? : Step → Option α)
    (initial : α) (steps : List Step) (step : Step) :
    latest installed? initial (steps ++ [step])
      = (installed? step).getD (latest installed? initial steps) := by
  unfold latest
  rw [List.filterMap_append]
  cases h : installed? step with
  | none =>
    rw [List.filterMap_cons_none h, List.filterMap_nil, List.append_nil,
      Option.getD_none]
  | some value =>
    rw [List.filterMap_cons_some h, List.filterMap_nil,
      List.getLast?_concat, Option.getD_some, Option.getD_some]

end Step

/-- The parts of a verifier after some steps: each is the one that was
installed last. A verifier starts with the clock that it was given, with
ECDSA for the signatures, and with rules that accept everything. -/
def Parts.latest (clock : UInt64) (steps : List Step) : Parts where
  clock := Step.latest Step.clock? clock steps
  judge := Step.latest Step.judge? (fun _ => Query.holds) steps
  ageRule := Step.latest Step.ageRule? (fun _ _ => true) steps
  pcrRule := Step.latest Step.pcrRule? (fun _ => true) steps

/-- A verification is not among the installations. -/
theorem Parts.latest_append_of_verification {step : Step}
    (h : step.IsVerification) (clock : UInt64) (before : List Step) :
    latest clock (before ++ [step]) = latest clock before := by
  unfold latest
  simp only [Step.latest_append_singleton]
  cases step with
  | verify | verifyUnder => rfl
  | setClock | setJudge | setAgeRule | setPcrRule | showSetup => cases h

/-- What a verifier replies that was just made of a setup and four
parts, and has asked its judge nothing yet. A verification that brings
its own rules along uses these, and of the parts only the clock and the
judge. -/
def Setup.freshReply (setup : Setup) (parts : Parts) : Step → Reply
  | .verify document =>
    .verdict ((setup.verify parts.clock parts.ageRule parts.pcrRule
      document).trace parts.judge 0).2
  | .verifyUnder ageRule pcrRule document =>
    .verdict ((setup.verify parts.clock ageRule pcrRule
      document).trace parts.judge 0).2
  | .showSetup => .setup setup
  | .setClock _ | .setJudge _ | .setAgeRule _ | .setPcrRule _ => .installed

-- ======================================================== the session

namespace Session

/-- The session after some steps. -/
def after (s : Session) (steps : List Step) : Session :=
  steps.foldl (fun s step => (s.step step).1) s

/-- The reply to a step. -/
def reply (s : Session) (step : Step) : Reply :=
  (s.step step).2

variable {s : Session} {step : Step} {steps before later : List Step}

theorem after_concat :
    s.after (steps ++ [step]) = ((s.after steps).step step).1 := by
  rw [after, List.foldl_concat]
  rfl

theorem run_cons :
    s.run (step :: later) = s.reply step :: (s.step step).1.run later :=
  rfl

/-- There is one reply to each step. -/
theorem length_run (s : Session) (steps : List Step) :
    (s.run steps).length = steps.length := by
  induction steps generalizing s with
  | nil => rfl
  | cons step steps ih => exact congrArg (· + 1) (ih _)

/-- Replies to the later steps are those of the session after the earlier
ones. -/
theorem run_append :
    s.run (before ++ later) = s.run before ++ (s.after before).run later := by
  induction before generalizing s with
  | nil => rfl
  | cons step before ih => exact congrArg (s.reply step :: ·) ih

-- ================================================= what a step changes

/-- No step changes the setup. -/
theorem setup_step : (s.step step).1.setup = s.setup := by
  cases step <;> rfl

/-- A step replaces the part that it installs and leaves the others. -/
theorem parts_step :
    (s.step step).1.parts
      = ⟨step.clock?.getD s.parts.clock, step.judge?.getD s.parts.judge,
         step.ageRule?.getD s.parts.ageRule,
         step.pcrRule?.getD s.parts.pcrRule⟩ := by
  cases step <;> rfl

theorem setup_after : (s.after steps).setup = s.setup := by
  induction steps generalizing s with
  | nil => rfl
  | cons step steps ih => exact ih.trans setup_step

variable {setup : Setup} {clock : UInt64}

/-- By induction from the last step back: the parts are those that were
installed last. -/
theorem parts_after (setup : Setup) (clock : UInt64) (steps : List Step) :
    ((start setup clock).after steps).parts = Parts.latest clock steps := by
  induction steps using List.reverseRecOn with
  | nil => rfl
  | append_singleton steps step ih =>
    rw [after_concat, parts_step, ih]
    unfold Parts.latest
    simp only [Step.latest_append_singleton]

-- ================================================== plain judges

/-- The answers of the judge depend on the question alone. -/
def IsPlain (s : Session) : Prop :=
  ∃ answer, s.parts.judge = fun _ => answer

theorem IsPlain.next (h : s.IsPlain) (hstep : step.IsPlain) :
    (s.step step).1.IsPlain := by
  unfold IsPlain
  rw [parts_step]
  cases step with
  | setJudge judge => exact hstep
  | setClock | setAgeRule | setPcrRule | verify | verifyUnder | showSetup =>
    exact h

theorem IsPlain.after (h : s.IsPlain)
    (hsteps : ∀ step ∈ steps, step.IsPlain) : (s.after steps).IsPlain := by
  induction steps generalizing s with
  | nil => exact h
  | cons step steps ih =>
    obtain ⟨hstep, hsteps⟩ := List.forall_mem_cons.1 hsteps
    exact ih (h.next hstep) hsteps

/-- A verifier starts with ECDSA, which looks at the question only. -/
theorem isPlain_start (setup : Setup) (clock : UInt64) :
    (start setup clock).IsPlain :=
  ⟨Query.holds, rfl⟩

/-- How many questions a plain judge was asked before makes no
difference to a reply. -/
theorem IsPlain.reply_eq (h : s.IsPlain) (step : Step) :
    s.reply step = s.setup.freshReply s.parts step := by
  obtain ⟨answer, hanswer⟩ := h
  have hverdict (ageRule : AgeRule) (pcrRule : PcrRule)
      (document : Bytes) :
      (s.verifyUnder ageRule pcrRule document).2
        = ((s.setup.verify s.parts.clock ageRule pcrRule
            document).trace s.parts.judge 0).2 := by
    show (Inquiry.trace s.parts.judge s.asked _).2 = _
    rw [hanswer, Inquiry.trace_const, Inquiry.trace_const]
  cases step with
  | setClock | setJudge | setAgeRule | setPcrRule | showSetup => rfl
  | verify document => exact congrArg Reply.verdict (hverdict _ _ document)
  | verifyUnder ageRule pcrRule document =>
    exact congrArg Reply.verdict (hverdict ageRule pcrRule document)

-- ============================================== replies by latest parts

/-- A verifier that is set up, given four parts one after another and
used at once replies so. -/
theorem reply_of_installed (setup : Setup) (clock : UInt64)
    (parts : Parts) (step : Step) :
    ((start setup clock).after
        [.setClock parts.clock, .setJudge parts.judge,
         .setAgeRule parts.ageRule, .setPcrRule parts.pcrRule]).reply step
      = setup.freshReply parts step := by
  cases step <;> rfl

/-- After any steps a verifier replies as one that was just made of the
same setup and the parts that were installed last. -/
theorem reply_after (hbefore : ∀ step ∈ before, step.IsPlain)
    (step : Step) :
    ((start setup clock).after before).reply step
      = setup.freshReply (Parts.latest clock before) step := by
  have hplain := (isPlain_start setup clock).after hbefore
  rw [hplain.reply_eq, setup_after, parts_after]
  rfl

/-- By induction on the later steps: they get the same replies after any
steps that installed the same parts last. -/
theorem run_after_of_latest {others : List Step}
    (hbefore : ∀ step ∈ before, step.IsPlain)
    (hothers : ∀ step ∈ others, step.IsPlain)
    (hlater : ∀ step ∈ later, step.IsPlain)
    (h : Parts.latest clock before = Parts.latest clock others) :
    ((start setup clock).after before).run later
      = ((start setup clock).after others).run later := by
  induction later generalizing before others with
  | nil => rfl
  | cons step later ih =>
    obtain ⟨hstep, hlater⟩ := List.forall_mem_cons.1 hlater
    have hnext : Parts.latest clock (before ++ [step])
        = Parts.latest clock (others ++ [step]) := by
      rw [← parts_after setup, ← parts_after setup, after_concat,
        after_concat, parts_step, parts_step, parts_after, parts_after, h]
    rw [run_cons, run_cons, reply_after hbefore, reply_after hothers, h,
      ← after_concat, ← after_concat]
    refine congrArg _ (ih ?_ ?_ hlater hnext)
    · exact List.forall_mem_append.2
        ⟨hbefore, List.forall_mem_singleton.2 hstep⟩
    · exact List.forall_mem_append.2
        ⟨hothers, List.forall_mem_singleton.2 hstep⟩

/-- What a verifier replies depends on the parts that were installed
last. Each step of a session gets the reply of a verifier that was just
made of the same setup and of these parts, where a verification's own
rules stand in the place of installed ones; the setup that is shown is
always the first one; and a verification can be left out without any
change in the later replies. -/
theorem run_depends_on_latest (setup : Setup) (clock : UInt64)
    (steps : List Step) (hplain : ∀ step ∈ steps, step.IsPlain) :
    ∀ before step later, steps = before ++ step :: later →
      ((start setup clock).run steps)[before.length]?
          = some (setup.freshReply (Parts.latest clock before) step)
        ∧ (step.IsVerification →
          ((start setup clock).run steps).drop (before.length + 1)
            = ((start setup clock).run (before ++ later)).drop
                before.length) := by
  rintro before step later rfl
  obtain ⟨hbefore, hrest⟩ := List.forall_mem_append.1 hplain
  obtain ⟨hstep, hlater⟩ := List.forall_mem_cons.1 hrest
  have hlength := length_run (start setup clock) before
  rw [run_append, run_cons, run_append]
  refine ⟨?_, fun hverification => ?_⟩
  · rw [List.getElem?_append_right (Nat.le_of_eq hlength), hlength,
      Nat.sub_self, List.getElem?_cons_zero, reply_after hbefore]
  · have hboth : ∀ step' ∈ before ++ [step], step'.IsPlain :=
      List.forall_mem_append.2
        ⟨hbefore, List.forall_mem_singleton.2 hstep⟩
    have hlatest :=
      Parts.latest_append_of_verification hverification clock before
    rw [← hlength, List.drop_length_add_append, List.drop_left,
      List.drop_succ_cons, List.drop_zero, ← after_concat]
    exact run_after_of_latest hboth hbefore hlater hlatest

end Session

-- =============================================== a session as an example

namespace SmallChain

/-- A session in November 2023. A rule that refuses all registers is
installed and replaced, with a verification before and after. -/
def steps : List Step :=
  [.setJudge fun _ _ => true, .setPcrRule fun _ => false,
   .setClock 1700000000, .verify document, .setPcrRule .any,
   .verify document]

end SmallChain

/-- The second verification accepts the small chain's document, as a
verifier does that has the parts installed last; and it would if the
first one were left out. -/
theorem Session.run_depends_on_latest_smallChain :
    (∀ step ∈ SmallChain.steps, step.IsPlain)
      ∧ ((start SmallChain.setup 0).run SmallChain.steps)[5]?
        = some (.verdict (.ok
            (SmallChain.payload.statement SmallChain.own.publicKey)))
      ∧ ((start SmallChain.setup 0).run SmallChain.steps).drop 4
        = ((start SmallChain.setup 0).run
            (SmallChain.steps.eraseIdx 3)).drop 3 := by
  have hplain : ∀ step ∈ SmallChain.steps, step.IsPlain := by
    refine List.forall_mem_cons.2 ⟨⟨fun _ => true, rfl⟩, ?_⟩
    simp [Step.IsPlain]
  have hreply := run_depends_on_latest SmallChain.setup 0 SmallChain.steps
    hplain
  obtain ⟨hlast, -⟩ := hreply (SmallChain.steps.take 5)
    (.verify SmallChain.document) [] rfl
  obtain ⟨-, hless⟩ := hreply (SmallChain.steps.take 3)
    (.verify SmallChain.document) (SmallChain.steps.drop 4) rfl
  refine ⟨hplain, hlast.trans (congrArg some ?_), hless trivial⟩
  have hparts : Parts.latest 0 (SmallChain.steps.take 5)
      = ⟨1700000000, fun _ _ => true, .any, .any⟩ := rfl
  rw [hparts, Setup.freshReply, Inquiry.trace_const]
  exact congrArg Reply.verdict
    (SmallChain.run_verify 1700000000 (by decide) rfl)

end Attestation
