/-
The two commands agree about documents. Inspecting is verifying without
a rule: it finds acceptable what some rules find acceptable
(`Verifies.inspects`), and the other way round for the rules of a line
that states none (`Inspects.verifies`). What it prints goes on where the
report of a verification ends, with the registers once more and the mode
(`Continues`). The main statement, `run_inspect_agrees`, says so of
whole runs, and that a run which fails prints nothing.

The direction from verifying to inspecting is the one that needs an
argument: rules that accept a document are replaced by rules that accept
everything, and what is stated does not change
(`run_verify_any_of_run_verify`). This is an instance of rules having no
influence but through their answers, and the same lemma as for any two
rules. The other direction is that of a line without rules, where the
two commands do the same.

Two lines with the same arguments are compared, so the reading of lines
comes in as well, and what is different there is that one command knows
two options more. How a line for the one command is one for the other is
the subject of its own module; here it is used in both directions.

Reports are compared as lists of fields, in their order, since a reader
of one may rely on it for the other. The mode is printed as a word, and
it is that of the setup and of the line together (`mode_of_readSetup`).
-/
import Attestation.Proofs.CommandLine.ExpectedRegisters
import Attestation.Proofs.CommandLine.TwoCommands
import Attestation.Proofs.Trust.Loading
import Attestation.Proofs.Verification.Rules

namespace Attestation

-- ========================================================== the mode

/-- A loaded setup asks for full trust when its variable has the word
for it. -/
theorem mode_of_load {lookup : String → Option String} {setup : Setup}
    (h : Setup.load lookup = .ok setup) :
    setup.mode = .full ↔ lookup "NITRO_ATTEST_FULL_CHAIN" = some "true" := by
  obtain ⟨-, -, -, hmode, -⟩ := Setup.load_eq_ok_iff.1 h
  rcases Setup.readSetting_eq_ok_iff.1 hmode with ⟨habsent, husual⟩
    | ⟨text, htext, hparse⟩
  · rw [Setting.name] at habsent
    rw [husual, habsent]
    decide
  · rw [Setting.name] at htext
    rw [htext, ← Except.ok.inj hparse, modeOf]
    by_cases htrue : text = "true"
    · simp [htrue]
    · simp [htrue, Setup.standard]

namespace Setup

variable {setup : Setup} {now : UInt64} {accepts : AgeRule}
  {acceptsPcrs : PcrRule} {document : Bytes} {answer : Query → Bool}
  {v : Statement}

/-- What is accepted under rules is accepted without. -/
theorem run_verify_any_of_run_verify
    (h : (setup.verify now accepts acceptsPcrs document).run answer
      = .ok v) :
    (setup.verify now .any .any document).run answer = .ok v := by
  cases happroach : setup.approach now document with
  | error reason =>
    rw [run_verify_of_approach_error happroach] at h
    cases h
  | ok found =>
    obtain ⟨e, head⟩ := found
    rw [run_verify_of_approach happroach] at h
    rw [run_verify_any happroach]
    split at h
    · obtain ⟨s, hs, h⟩ := bind_eq_ok_iff.1 h
      split at h
      · cases h
        exact hs
      · cases h
    · cases h

end Setup

namespace CommandLine

section

variable {world : Surroundings} {input : Input} {maxAge : Option UInt64}
  {expected : List (UInt8 × Pcr)} {s : Statement} {mode : TrustMode}
  {line : List String}

/-- A line for either command asks for full trust, or its environment
does. -/
def FullTrust (world : Surroundings) (input : Input) : Prop :=
  input.fullChain = true
    ∨ world.setting "NITRO_ATTEST_FULL_CHAIN" = some "true"

/-- Whole chains are checked if the setup or the line says so. -/
theorem mode_of_readSetup {setup : Setup}
    (h : Request.readSetup world input = .ok setup) :
    setup.mode = .full ↔ FullTrust world input := by
  obtain ⟨loaded, hloaded, h⟩ := bind_eq_ok_iff.1 h
  have hmode := mode_of_load (mapError_eq_ok_iff.1 hloaded)
  unfold FullTrust
  cases hfull : input.fullChain with
  | true =>
    rw [hfull] at h
    cases h
    simp
  | false =>
    rw [hfull] at h
    cases h
    simpa using hmode

-- ======================================================= inspecting

/-- The document that an input names is accepted without a rule, in a
mode. -/
def Inspects (world : Surroundings) (input : Input) (s : Statement)
    (mode : TrustMode) : Prop :=
  ∃ document setup, Request.readDocument world input = .ok document
    ∧ Request.readSetup world input = .ok setup
    ∧ (setup.verify (input.now.getD world.clock) .any .any document).run
        Query.holds = .ok s
    ∧ setup.mode = mode

/-- What is verified under some rules is found by an inspection. -/
theorem Verifies.inspects (h : Verifies world input maxAge expected s) :
    ∃ mode, Inspects world input s mode := by
  obtain ⟨document, setup, hdocument, hsetup, hrun⟩ := h
  exact ⟨setup.mode, document, setup, hdocument, hsetup,
    Setup.run_verify_any_of_run_verify hrun, rfl⟩

/-- A line without expectations accepts all registers, and one without
an age accepts all times. -/
theorem Inspects.verifies (h : Inspects world input s mode) :
    Verifies world input none [] s := by
  obtain ⟨document, setup, hdocument, hsetup, hrun, -⟩ := h
  exact ⟨document, setup, hdocument, hsetup, hrun⟩

/-- The mode that is shown is the one in use. -/
theorem Inspects.mode_eq (h : Inspects world input s mode) :
    mode = .full ↔ FullTrust world input := by
  obtain ⟨document, setup, -, hsetup, -, rfl⟩ := h
  exact mode_of_readSetup hsetup

/-- A request to inspect succeeds with the report on what is inspected.
-/
theorem execute_inspect_eq_ok_iff {report : Json} :
    (Request.inspect input).execute world = .ok report
      ↔ ∃ s mode, Inspects world input s mode
          ∧ report = Report.inspection s mode := by
  refine ⟨fun h => ?_, fun h => ?_⟩
  · obtain ⟨document, hdocument, h⟩ := bind_eq_ok_iff.1 h
    obtain ⟨setup, hsetup, h⟩ := bind_eq_ok_iff.1 h
    obtain ⟨s, hs, h⟩ := bind_eq_ok_iff.1 h
    cases h
    exact ⟨s, setup.mode,
      ⟨document, setup, hdocument, hsetup, mapError_eq_ok_iff.1 hs, rfl⟩,
      rfl⟩
  · obtain ⟨s, mode, ⟨document, setup, hdocument, hsetup, hs, rfl⟩, rfl⟩ := h
    refine bind_eq_ok_iff.2 ⟨document, hdocument, ?_⟩
    refine bind_eq_ok_iff.2 ⟨setup, hsetup, ?_⟩
    exact bind_eq_ok_iff.2 ⟨s, mapError_eq_ok_iff.2 hs, rfl⟩

-- ============================================================= runs

theorem run_of_parse {request : Request} (h : parse line = .ok request) :
    run world line = finished (request.execute world) := by
  rw [run, h]

/-- A run goes well when its request is carried out. -/
theorem exitCode_finished {x : Except Failure Json} :
    (finished x).exitCode = 0 ↔ ∃ report, x = .ok report := by
  cases x <;> simp [finished]

/-- A verification ends well exactly if there is something verified. -/
theorem exitCode_verify_iff
    (h : parse line = .ok (.verify input maxAge expected)) :
    (run world line).exitCode = 0
      ↔ ∃ s, Verifies world input maxAge expected s := by
  rw [run_of_parse h, exitCode_finished]
  simp [execute_eq_ok_iff]

/-- An inspection ends well exactly if there is something inspected. -/
theorem exitCode_inspect_iff (h : parse line = .ok (.inspect input)) :
    (run world line).exitCode = 0
      ↔ ∃ s mode, Inspects world input s mode := by
  rw [run_of_parse h, exitCode_finished]
  simp [execute_inspect_eq_ok_iff]

theorem run_inspect (h : parse line = .ok (.inspect input))
    (hs : Inspects world input s mode) :
    run world line
      = ⟨0, (Report.inspection s mode).pretty ++ "\n", ""⟩ := by
  rw [run_of_parse h, execute_inspect_eq_ok_iff.2 ⟨s, mode, hs, rfl⟩]
  rfl

theorem run_verify (h : parse line = .ok (.verify input maxAge expected))
    (hs : Verifies world input maxAge expected s) :
    run world line = accepted s := by
  rw [run_of_parse h, execute_eq_ok_iff.2 ⟨s, hs, rfl⟩]
  rfl

/-- Nothing is printed by a run that fails. -/
theorem stdout_of_exitCode {arguments : List String}
    (h : (run world arguments).exitCode ≠ 0) :
    (run world arguments).stdout = "" := by
  unfold run at h ⊢
  cases hparse : parse arguments with
  | error halt =>
    rw [hparse] at h
    cases halt with
    | help => exact absurd rfl h
    | mistake error => rfl
    | noCommand => rfl
  | ok request =>
    rw [hparse] at h
    cases hexecute : request.execute world with
    | error failure =>
      simp only [hexecute]
      rfl
    | ok report =>
      simp only [hexecute] at h
      exact absurd rfl h

/-- A line for the command to inspect asks for nothing else. -/
theorem request_of_inspect {arguments : List String} {request : Request}
    (h : parse ("inspect" :: arguments) = .ok request) :
    ∃ input, request = .inspect input := by
  have hcommand : parseCommand .inspect arguments = .ok request := h
  obtain ⟨_, g, -, -, hrequest⟩ := parseCommand_eq_ok_iff.1 hcommand
  obtain ⟨_, -, hrequest⟩ := bind_eq_ok_iff.1 hrequest
  cases hrequest
  exact ⟨_, rfl⟩

/-- One run prints an object, and another one the same object with the
registers by their indexes and the mode put behind. -/
structure Continues (fullTrust : Prop) (verified inspected : Outcome)
    (fields map : List (String × Json)) (mode : String) : Prop where
  verified_eq : verified = ⟨0, (Json.object fields).pretty ++ "\n", ""⟩
  inspected_eq : inspected
    = ⟨0, (Json.object (fields ++ [("pcr_map", .object map),
        ("chain_verification", .text mode)])).pretty ++ "\n", ""⟩
  indexes : map.map Prod.fst = ["0", "1", "2", "3", "4", "8"]
  /-- The registers have the same values as before. -/
  registers : fields.lookup "pcrs"
    = some (.object (map.map fun entry => ("pcr" ++ entry.1, entry.2)))
  /-- The values are 48 bytes each, in hexadecimal. -/
  values : ∀ entry ∈ map, ∃ value : Pcr,
    entry.2 = .text (Hex.text value.toList)
  mode_full : mode = "full" ↔ fullTrust
  mode_linkage : mode = "identity_linkage" ↔ ¬fullTrust

/-- The report of an inspection begins with that of a verification. -/
theorem Inspects.continues (h : Inspects world input s mode)
    {verified inspected : Outcome}
    (hverified : verified = accepted s)
    (hinspected : inspected
      = ⟨0, (Report.inspection s mode).pretty ++ "\n", ""⟩) :
    Continues (FullTrust world input) verified inspected (Report.fields s)
      (s.pcrs.toList.map fun entry =>
        (toString entry.1, Report.bytes entry.2.toList)) mode.name where
  verified_eq := hverified
  inspected_eq := hinspected
  indexes := by
    rw [Pcrs.toList, List.map_map, List.map_map]
    show Slot.all.map (fun slot => toString slot.index) = _
    decide
  registers := by
    rw [Pcrs.toList, List.map_map, List.map_map]
    rfl
  values := by
    intro entry hentry
    obtain ⟨register, -, rfl⟩ := List.mem_map.1 hentry
    exact ⟨register.2, rfl⟩
  mode_full := by
    rw [← h.mode_eq]
    cases mode <;> simp [TrustMode.name]
  mode_linkage := by
    rw [← h.mode_eq]
    cases mode <;> simp [TrustMode.name]

end

/-- The two commands agree. The same arguments ask to inspect a document
if they ask to verify it without a rule, and a run of the one goes well
if a run of the other does. Under any rules, whenever a document is
verified, inspecting goes well too and prints the same object with the
registers by their indexes and the mode put behind. And no run that
fails prints anything. -/
theorem run_inspect_agrees (world : Surroundings) :
    (∀ arguments input,
      parse ("inspect" :: arguments) = .ok (.inspect input)
        ↔ parse ("verify" :: arguments) = .ok (.verify input none []))
      ∧ (∀ arguments, (run world ("inspect" :: arguments)).exitCode = 0 →
        (run world ("verify" :: arguments)).exitCode = 0)
      ∧ (∀ line other input,
        parse line = .ok (.inspect input) →
        parse other = .ok (.verify input none []) →
        ((run world line).exitCode = 0 ↔ (run world other).exitCode = 0))
      ∧ (∀ line other input maxAge expected,
        parse line = .ok (.inspect input) →
        parse other = .ok (.verify input maxAge expected) →
        (run world other).exitCode = 0 →
        ∃ fields map mode, Continues (FullTrust world input)
          (run world other) (run world line) fields map mode)
      ∧ ∀ arguments, (run world arguments).exitCode ≠ 0 →
        (run world arguments).stdout = "" := by
  have hsame {line other : List String} {input : Input}
      (hline : parse line = .ok (.inspect input))
      (hother : parse other = .ok (.verify input none [])) :
      (run world line).exitCode = 0 ↔ (run world other).exitCode = 0 := by
    rw [exitCode_inspect_iff hline, exitCode_verify_iff hother]
    refine ⟨fun h => ?_, fun h => ?_⟩
    · obtain ⟨s, mode, hs⟩ := h
      exact ⟨s, hs.verifies⟩
    · obtain ⟨s, hs⟩ := h
      exact ⟨s, hs.inspects⟩
  refine ⟨fun arguments input => parse_inspect_iff, fun arguments h => ?_,
    fun line other input => hsame,
    fun line other input maxAge expected hline hother h => ?_,
    fun arguments => stdout_of_exitCode⟩
  · cases hparse : parse ("inspect" :: arguments) with
    | error halt =>
      cases halt with
      | help => rw [run, parse_help_of_inspect hparse]; rfl
      | mistake error => simp [run, hparse, halted] at h
      | noCommand => simp [run, hparse, halted] at h
    | ok request =>
      obtain ⟨input, rfl⟩ := request_of_inspect hparse
      exact (hsame hparse (parse_inspect_iff.1 hparse)).1 h
  · obtain ⟨s, hs⟩ := (exitCode_verify_iff hother).1 h
    obtain ⟨mode, hinspects⟩ := hs.inspects
    exact ⟨_, _, _, hinspects.continues (run_verify hother hs)
      (run_inspect hline hinspects)⟩

open SmallChain in
/-- A line that expects the zeros which the signed document has in the
register 0 is accepted, and inspecting prints the same and that the
chain was not verified in full. -/
theorem run_inspect_agrees_expecting :
    (run world ("verify" :: line [expectZeros])).exitCode = 0
      ∧ (run world ("inspect" :: line [])).exitCode = 0
      ∧ ∃ fields map, Continues (FullTrust world input)
          (run world ("verify" :: line [expectZeros]))
          (run world ("inspect" :: line [])) fields map
          "identity_linkage" := by
  obtain ⟨hsame, -, -, hcontinues, -⟩ := run_inspect_agrees world
  have hzeros : parse ("verify" :: line [expectZeros])
      = .ok (.verify input none [(0, .ofNat 48 0)]) := by
    refine parseCommand_verify_iff.2 ⟨_, _, input, says_line ?_, rfl, rfl⟩
    rw [List.mapM_cons, stated?_zeros]
    rfl
  have hnone : parse ("verify" :: line [])
      = .ok (.verify input none []) :=
    parseCommand_verify_iff.2 ⟨_, _, input, says_line rfl, rfl, rfl⟩
  have hinspect : parse ("inspect" :: line []) = .ok (.inspect input) :=
    (hsame _ _).2 hnone
  have hexit : (run world ("verify" :: line [expectZeros])).exitCode = 0 :=
    (exitCode_verify_iff hzeros).2 ⟨_, verifies (by decide +kernel)⟩
  obtain ⟨fields, map, mode, hruns⟩ :=
    hcontinues _ _ input none _ hinspect hzeros hexit
  have hlinkage : ¬FullTrust world input := by
    rintro (hflag | hsetting)
    · cases hflag
    · exact absurd hsetting (by decide +kernel)
  refine ⟨hexit, ?_, fields, map, ?_⟩
  · rw [hruns.inspected_eq]
  · rw [← hruns.mode_linkage.2 hlinkage]
    exact hruns

end CommandLine

end Attestation
