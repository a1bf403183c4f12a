/-
A verifier in use: its setup, which never changes, and four parts that
can be replaced at any time (the clock, the judge of signatures, and
the two rules). Steps are data, so that a whole session is a list.

A judge may answer by how many questions it was asked before, so the
count of its questions is kept with it, and starts anew when it is
replaced.
-/
import Attestation.Verification

namespace Attestation

/-- The replaceable parts of a verifier. -/
structure Parts where
  /-- What the clock shows, in seconds since 1970. -/
  clock : UInt64
  /-- The answer to each question about a signature, by the number of
  questions asked before. -/
  judge : Nat → Query → Bool
  ageRule : AgeRule
  pcrRule : PcrRule

/-- The parts a verifier starts with: ECDSA as the judge, and rules
that accept everything. -/
def Parts.standard (clock : UInt64) : Parts :=
  ⟨clock, fun _ => Query.holds, AgeRule.any, PcrRule.any⟩

/-- A verifier between two steps. -/
structure Session where
  setup : Setup
  parts : Parts
  /-- How many questions the judge was asked. -/
  asked : Nat

inductive Step where
  | setClock (now : UInt64)
  | setJudge (judge : Nat → Query → Bool)
  | setAgeRule (rule : AgeRule)
  | setPcrRule (rule : PcrRule)
  | verify (document : Bytes)
  | verifyUnder (ageRule : AgeRule) (pcrRule : PcrRule)
      (document : Bytes)
  | showSetup

inductive Reply where
  | installed
  | verdict (outcome : Except Refusal Statement)
  | setup (setup : Setup)

namespace Session

/-- A verifier that was just set up. -/
def start (setup : Setup) (clock : UInt64) : Session :=
  ⟨setup, .standard clock, 0⟩

/-- Verifies a document with the clock and the judge in place, under
the given rules. -/
def verifyUnder (s : Session) (ageRule : AgeRule) (pcrRule : PcrRule)
    (document : Bytes) : Session × Except Refusal Statement :=
  let inquiry := s.setup.verify s.parts.clock ageRule pcrRule document
  let (calls, outcome) := inquiry.trace s.parts.judge s.asked
  ({ s with asked := s.asked + calls.length }, outcome)

def step (s : Session) : Step → Session × Reply
  | .setClock now => ({ s with parts.clock := now }, .installed)
  | .setJudge judge =>
    ({ s with parts.judge := judge, asked := 0 }, .installed)
  | .setAgeRule rule => ({ s with parts.ageRule := rule }, .installed)
  | .setPcrRule rule => ({ s with parts.pcrRule := rule }, .installed)
  | .verify document =>
    let (after, outcome) :=
      s.verifyUnder s.parts.ageRule s.parts.pcrRule document
    (after, .verdict outcome)
  | .verifyUnder ageRule pcrRule document =>
    let (after, outcome) := s.verifyUnder ageRule pcrRule document
    (after, .verdict outcome)
  | .showSetup => (s, .setup s.setup)

/-- Carries out steps in order, and lists their replies. -/
def run (s : Session) : List Step → List Reply
  | [] => []
  | step :: steps =>
    let (after, reply) := s.step step
    reply :: after.run steps

end Session

end Attestation
