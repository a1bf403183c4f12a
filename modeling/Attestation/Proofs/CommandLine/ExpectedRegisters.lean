/-
What a run of the program makes of the expectations on its command line.
A run that verifies a document ends well when the line can be read and
the document is accepted (`ends_of_exitCode`), and how the line is read
and what is accepted depend on an expectation in one place each: it is
put among the others, and the last one for each register is compared. So
an expectation is met, and another one more makes no difference for the
better, as long as no two are for the same register
(`run_verify_expecting`); and where two are, the earlier one is lost
(`exitCode_of_repeated`).

Three layers are put on top of each other. `Says` is what a line says,
with its expectations apart from the rest: this is the reading of
arguments and of items, and has nothing to do with documents. `Verifies`
is what happens to a document under given rules, in given surroundings:
the file is read, the setup is loaded, and the verification succeeds.
And a run that ends well is one of either kind, a line that asks for
help or a line that is obeyed.

Of a verification only one thing is needed, that the registers have no
influence but through their rule: a document that some registers' rule
accepts is accepted by any other that its registers satisfy
(`run_verify_of_accepts`, `Verifies.of_accepts`). So to compare two
lines it is enough to compare their rules on the registers of one
document.

The last part is a document with real signatures, for lines that can be
obeyed with the standard judge.
-/
import Attestation.CommandLine.Run
import Attestation.Proofs.CommandLine.Expectations
import Attestation.Proofs.Document.Envelope
import Attestation.Proofs.Document.Modes
import Attestation.Proofs.Verification.Stages

namespace Attestation

open Inquiry

-- ====================================================== the rule

namespace Setup

variable {setup : Setup} {now : UInt64} {accepts : AgeRule}
  {acceptsPcrs other : PcrRule} {document : Bytes} {answer : Query → Bool}
  {v : Statement}

/-- The registers in an accepted statement are acceptable. -/
theorem accepts_of_run
    (h : (setup.verify now accepts acceptsPcrs document).run answer
      = .ok v) :
    acceptsPcrs v.pcrs = true := by
  obtain ⟨calls, hends, -⟩ := run_eq_iff.1 h
  obtain ⟨-, e, links, -, -, -, hpcrs⟩ := verify_ends_ok_iff.1 hends
  exact hpcrs

/-- Any other rule for which they are acceptable accepts the statement
too. -/
theorem run_verify_of_accepts
    (h : (setup.verify now accepts acceptsPcrs document).run answer = .ok v)
    (hother : other v.pcrs = true) :
    (setup.verify now accepts other document).run answer = .ok v := by
  obtain ⟨calls, hends, hanswer⟩ := run_eq_iff.1 h
  obtain ⟨hnow, e, links, he, hs, hcalls, -⟩ := verify_ends_ok_iff.1 hends
  exact run_eq_iff.2 ⟨calls,
    verify_ends_ok_iff.2 ⟨hnow, e, links, he, hs, hcalls, hother⟩, hanswer⟩

end Setup

namespace CommandLine

-- ==================================================== what is asked for

/-- The input that settled arguments name. -/
def Given.input? (g : Given) : Option Input :=
  g.file.map fun file =>
    ⟨file, g.encoding.getD .raw, g.fullChain, g.now⟩

variable {arguments before after spelling : List String}
  {value : String} {help : Bool} {entries : List (UInt8 × Pcr)} {g : Given}
  {world : Surroundings}

/-- On a line for the command to verify there is no mistake up to its end
or to a request for help, there are these expectations, and everything
else settles `g`. -/
def Says (arguments : List String) (help : Bool)
    (entries : List (UInt8 × Pcr)) (g : Given) : Prop :=
  ∃ items, spell? .verify none arguments = some ⟨items, help⟩
    ∧ (expectations items).mapM stated? = some entries
    ∧ (others items).foldlM Given.add Given.nothing = some g

/-- What items settle is what the expectations among them state, and
what the others settle. -/
theorem foldlM_add_nothing_iff {items : List Item} :
    items.foldlM Given.add Given.nothing = some g
      ↔ ∃ entries g', (expectations items).mapM stated? = some entries
          ∧ (others items).foldlM Given.add Given.nothing = some g'
          ∧ g'.expecting entries = g := by
  have hfold := foldlM_add items Given.nothing []
  rw [show Given.nothing.expecting [] = Given.nothing from rfl] at hfold
  rw [hfold, Option.bind_eq_some_iff]
  simp only [Option.map_eq_some_iff, List.nil_append]
  refine ⟨fun h => ?_, fun h => ?_⟩
  · obtain ⟨entries, hentries, g', hg', hg⟩ := h
    exact ⟨entries, g', hentries, hg', hg⟩
  · obtain ⟨entries, g', hentries, hg', hg⟩ := h
    exact ⟨entries, hentries, g', hg', hg⟩

/-- A line asks for help if its items up to there are without a mistake.
-/
theorem parseCommand_verify_help_iff :
    parseCommand .verify arguments = .error .help
      ↔ ∃ entries g, Says arguments true entries g := by
  rw [parseCommand_eq_help_iff]
  refine ⟨fun h => ?_, fun h => ?_⟩
  · obtain ⟨items, _, hspell, h⟩ := h
    obtain ⟨entries, g, hentries, hg, -⟩ := foldlM_add_nothing_iff.1 h
    exact ⟨entries, g, items, hspell, hentries, hg⟩
  · obtain ⟨entries, g, items, hspell, hentries, hg⟩ := h
    exact ⟨items, _, hspell,
      foldlM_add_nothing_iff.2 ⟨entries, g, hentries, hg, rfl⟩⟩

/-- Expectations and the age have no say in what is verified. -/
theorem request_expecting_iff {request : Request} :
    (g.expecting entries).request .verify = .ok request
      ↔ ∃ input, g.input? = some input
          ∧ request = .verify input g.maxAge entries := by
  unfold Given.request
  refine ⟨fun h => ?_, fun h => ?_⟩
  · obtain ⟨file, hfile, h⟩ := bind_eq_ok_iff.1 h
    cases h
    have hgiven : g.file = some file := demand_eq_ok_iff.1 hfile
    exact ⟨_, Option.map_eq_some_iff.2 ⟨file, hgiven, rfl⟩, rfl⟩
  · obtain ⟨input, hinput, rfl⟩ := h
    obtain ⟨file, hfile, rfl⟩ := Option.map_eq_some_iff.1 hinput
    exact bind_eq_ok_iff.2 ⟨file, demand_eq_ok_iff.2 hfile, rfl⟩

/-- A line asks for a verification if what it says names a document. -/
theorem parseCommand_verify_iff {request : Request} :
    parseCommand .verify arguments = .ok request
      ↔ ∃ entries g input, Says arguments false entries g
          ∧ g.input? = some input
          ∧ request = .verify input g.maxAge entries := by
  rw [parseCommand_eq_ok_iff]
  refine ⟨fun h => ?_, fun h => ?_⟩
  · obtain ⟨items, _, hspell, hfold, h⟩ := h
    obtain ⟨entries, g, hentries, hg, rfl⟩ := foldlM_add_nothing_iff.1 hfold
    obtain ⟨input, hinput, h⟩ := request_expecting_iff.1 h
    exact ⟨entries, g, input, ⟨items, hspell, hentries, hg⟩, hinput, h⟩
  · obtain ⟨entries, g, input, ⟨items, hspell, hentries, hg⟩, h⟩ := h
    exact ⟨items, _, hspell,
      foldlM_add_nothing_iff.2 ⟨entries, g, hentries, hg, rfl⟩,
      request_expecting_iff.2 ⟨input, h⟩⟩

/-- The expectations on a line. -/
def expectedOn? (arguments : List String) : Option (List (UInt8 × Pcr)) :=
  (spell? .verify none arguments).bind fun r =>
    (expectations r.items).mapM stated?

/-- What a line expects can be computed from its words. -/
theorem Says.expectedOn_eq (h : Says arguments help entries g) :
    expectedOn? arguments = some entries := by
  obtain ⟨items, hspell, hentries, -⟩ := h
  rw [expectedOn?, hspell]
  exact hentries

/-- A line says one thing. -/
theorem Says.unique {help' : Bool} {entries' : List (UInt8 × Pcr)}
    {g' : Given} (h : Says arguments help entries g)
    (h' : Says arguments help' entries' g') :
    help' = help ∧ entries' = entries ∧ g' = g := by
  obtain ⟨items, hspell, hentries, hg⟩ := h
  obtain ⟨items', hspell', hentries', hg'⟩ := h'
  rw [hspell] at hspell'
  cases hspell'
  rw [hentries] at hentries'
  cases hentries'
  rw [hg] at hg'
  cases hg'
  exact ⟨rfl, rfl, rfl⟩

/-- One more expectation changes nothing else, unless help was asked for
before it. -/
theorem Says.of_insert (hbefore : "--" ∉ before)
    (hspelling : spelling ∈ spellings value)
    (h : Says (before ++ spelling ++ after) help entries g) :
    Says (before ++ after) help entries g ∧ help = true
      ∨ ∃ first entry later, stated? value = some entry
          ∧ entries = first ++ entry :: later
          ∧ Says (before ++ after) help (first ++ later) g := by
  obtain ⟨items, hspell, hentries, hg⟩ := h
  rcases spell?_insert hbefore hspelling hspell with ⟨hsame, hhelp⟩
    | ⟨first, later, hitems, hless⟩
  · exact Or.inl ⟨⟨items, hsame, hentries, hg⟩, hhelp⟩
  · have hitems : items = first ++ .choice .expectPcr value :: later := hitems
    subst hitems
    have hvalues : expectations (first ++ .choice .expectPcr value :: later)
        = expectations first ++ value :: expectations later := by
      simp [expectations, Item.expectation?]
    have hboth : expectations (first ++ later)
        = expectations first ++ expectations later := by
      simp [expectations]
    have hothers : others (first ++ .choice .expectPcr value :: later)
        = others (first ++ later) := by
      simp [others, Item.expectation?]
    rw [hothers] at hg
    rw [hvalues, List.mapM_append, List.mapM_cons] at hentries
    obtain ⟨stated, hstated, hentries⟩ := Option.bind_eq_some_iff.1 hentries
    obtain ⟨rest, hrest, hentries⟩ := Option.bind_eq_some_iff.1 hentries
    obtain ⟨entry, hentry, hrest⟩ := Option.bind_eq_some_iff.1 hrest
    obtain ⟨more, hmore, hrest⟩ := Option.bind_eq_some_iff.1 hrest
    cases hrest
    cases hentries
    refine Or.inr ⟨stated, entry, more, hentry, rfl, first ++ later, hless,
      ?_, hg⟩
    rw [hboth, List.mapM_append, hstated, hmore]
    rfl

-- ============================================================ a run

/-- The document that an input names is accepted, with the expectations
for a rule. -/
def Verifies (world : Surroundings) (input : Input)
    (maxAge : Option UInt64) (entries : List (UInt8 × Pcr))
    (s : Statement) : Prop :=
  ∃ document setup, Request.readDocument world input = .ok document
    ∧ Request.readSetup world input = .ok setup
    ∧ (setup.verify (input.now.getD world.clock)
        (Request.verify input maxAge []).ageRule
        (Expectations.ofList entries).accept document).run Query.holds
      = .ok s

section

variable {input : Input} {maxAge : Option UInt64} {s : Statement}
  {others : List (UInt8 × Pcr)}

/-- A document that is verified has the registers that are expected. -/
theorem Verifies.accepts (h : Verifies world input maxAge entries s) :
    (Expectations.ofList entries).accept s.pcrs = true := by
  obtain ⟨document, setup, -, -, hrun⟩ := h
  exact Setup.accepts_of_run hrun

/-- There is one thing to be verified. -/
theorem Verifies.unique {s' : Statement}
    (h : Verifies world input maxAge entries s)
    (h' : Verifies world input maxAge entries s') : s' = s := by
  obtain ⟨document, setup, hdocument, hsetup, hrun⟩ := h
  obtain ⟨document', setup', hdocument', hsetup', hrun'⟩ := h'
  rw [hdocument] at hdocument'
  cases hdocument'
  rw [hsetup] at hsetup'
  cases hsetup'
  rw [hrun] at hrun'
  cases hrun'
  rfl

/-- A document is verified under any expectations that its registers
meet. -/
theorem Verifies.of_accepts (h : Verifies world input maxAge entries s)
    (hothers : (Expectations.ofList others).accept s.pcrs = true) :
    Verifies world input maxAge others s := by
  obtain ⟨document, setup, hdocument, hsetup, hrun⟩ := h
  exact ⟨document, setup, hdocument, hsetup,
    Setup.run_verify_of_accepts hrun hothers⟩

/-- A request to verify succeeds with the report on what is verified. -/
theorem execute_eq_ok_iff {report : Json} :
    (Request.verify input maxAge entries).execute world = .ok report
      ↔ ∃ s, Verifies world input maxAge entries s
          ∧ report = Report.verification s := by
  refine ⟨fun h => ?_, fun h => ?_⟩
  · obtain ⟨document, hdocument, h⟩ := bind_eq_ok_iff.1 h
    obtain ⟨setup, hsetup, h⟩ := bind_eq_ok_iff.1 h
    obtain ⟨s, hs, h⟩ := bind_eq_ok_iff.1 h
    cases h
    refine ⟨s, ⟨document, setup, hdocument, hsetup, ?_⟩, rfl⟩
    cases maxAge <;> exact mapError_eq_ok_iff.1 hs
  · obtain ⟨s, ⟨document, setup, hdocument, hsetup, hs⟩, rfl⟩ := h
    refine bind_eq_ok_iff.2 ⟨document, hdocument, ?_⟩
    refine bind_eq_ok_iff.2 ⟨setup, hsetup, ?_⟩
    refine bind_eq_ok_iff.2 ⟨s, mapError_eq_ok_iff.2 ?_, rfl⟩
    cases maxAge <;> exact hs

end

/-- What is printed about an accepted document. -/
def accepted (s : Statement) : Outcome :=
  ⟨0, (Report.verification s).pretty ++ "\n", ""⟩

/-- A request for help ends well, and shows how the program is used. -/
theorem run_of_help (h : Says arguments true entries g) :
    run world ("verify" :: arguments) = ⟨0, usage, ""⟩ := by
  have hparse : parse ("verify" :: arguments) = .error .help :=
    parseCommand_verify_help_iff.2 ⟨entries, g, h⟩
  rw [run, hparse]
  rfl

/-- A line that is obeyed ends well, and shows what was verified. -/
theorem run_of_verifies {input : Input} {s : Statement}
    (h : Says arguments false entries g) (hinput : g.input? = some input)
    (hverifies : Verifies world input g.maxAge entries s) :
    run world ("verify" :: arguments) = accepted s := by
  have hparse : parse ("verify" :: arguments)
      = .ok (.verify input g.maxAge entries) :=
    parseCommand_verify_iff.2 ⟨entries, g, input, h, hinput, rfl⟩
  rw [run, hparse]
  show finished (Request.execute world _) = _
  rw [execute_eq_ok_iff.2 ⟨s, hverifies, rfl⟩]
  rfl

/-- A run of the command to verify fails unless help is asked for or the
document is accepted. -/
theorem ends_of_exitCode
    (h : (run world ("verify" :: arguments)).exitCode = 0) :
    (∃ entries g, Says arguments true entries g)
      ∨ ∃ entries g input s, Says arguments false entries g
        ∧ g.input? = some input
        ∧ Verifies world input g.maxAge entries s := by
  have hparse : parse ("verify" :: arguments)
      = parseCommand .verify arguments := rfl
  rw [run, hparse] at h
  cases hcommand : parseCommand .verify arguments with
  | error halt =>
    rw [hcommand] at h
    cases halt with
    | help => exact Or.inl (parseCommand_verify_help_iff.1 hcommand)
    | mistake e => cases h
    | noCommand => cases h
  | ok request =>
    rw [hcommand] at h
    obtain ⟨entries, g, input, hsays, hinput, rfl⟩ :=
      parseCommand_verify_iff.1 hcommand
    have hfinished : (finished (Request.execute world
      (.verify input g.maxAge entries))).exitCode = 0 := h
    cases hexecute : (Request.verify input g.maxAge entries).execute world with
    | error failure =>
      rw [hexecute] at hfinished
      cases hfinished
    | ok report =>
      obtain ⟨s, hverifies, -⟩ := execute_eq_ok_iff.1 hexecute
      exact Or.inr ⟨entries, g, input, s, hsays, hinput, hverifies⟩

-- ====================================================== what is shown

/-- The report on a document has the value for the register with the
index. -/
def Shows (s : Statement) (index : UInt8) (value : Pcr) : Prop :=
  ∃ fields, Report.registers s.pcrs = .object fields
    ∧ fields.lookup ("pcr" ++ toString index.toNat)
      = some (Report.bytes value.toList)

/-- A register with this value is shown with it. -/
theorem shows_of_get? {s : Statement} {index : UInt8} {value : Pcr}
    (h : s.pcrs.get? index.toNat = some value) : Shows s index value := by
  obtain ⟨slot, hslot, rfl⟩ := Option.map_eq_some_iff.1 h
  have hindex : slot.index = index.toNat := by
    simpa using List.find?_some hslot
  refine ⟨_, rfl, ?_⟩
  rw [← hindex]
  cases slot <;> rfl

end CommandLine

-- ===================================================== a signed document

namespace SmallChain

/-- The certificate before the enclave's own, for the key whose secret
number is one. -/
def signer : Certificate.Profile :=
  { inner with
    publicKey := ⟨0x04 :: (Bytes.ofNat 48 P384.Point.generator.x.val
      ++ Bytes.ofNat 48 P384.Point.generator.y.val), by simp⟩
    uncompressed := rfl }

theorem length_signed_entries :
    ∀ der ∈ [root.parts.write, signer.parts.write], der.length < 65536 := by
  simp [Certificate.Profile.length_write, root, signer, inner, profile]

def signedBundle : Bundle where
  entries := [root.parts.write, signer.parts.write]
  count_le := by decide
  entry_lt := length_signed_entries

def signedPayload : Payload :=
  { payload with bundle := signedBundle.write }

/-- The signature of the payload by that key, with one for its nonce. -/
def ownSignature : RawSignature :=
  ⟨Bytes.ofNat 48 P384.Point.generator.x.val ++ Bytes.ofNat 48
    0x1b93c53221148f8c879b9a703e6de35157bf84039f8ac9ca3205f0ec799b02a0eb9c5c8321cb754194dbc0c44459b77a,
    by simp⟩

/-- Trust in the small chain's root by its name, in the reduced mode. -/
def signedSetup : Setup :=
  { Setup.standard with
    anchor := { Setup.standard.anchor with commonName := "r" } }

/-- A place where the file d holds the signed document, in November
2023. -/
def world : Surroundings where
  file name :=
    if name = "d" then
      .ok (Envelope.assemble signedPayload.write ownSignature)
    else .error .notFound
  setting name :=
    if name = Setting.rootName.name then some "r" else none
  clock := 1700000000

def signedStatement : Statement :=
  signedPayload.statement signer.publicKey

/-- In the reduced mode no question comes up while the payload is
read. -/
theorem trace_read_signed :
    (Statement.read (signedSetup.walk 1700000000) .any
      signedPayload.write).trace (fun _ _ => true) 0
      = ([], .ok signedStatement) := by
  decide +kernel

/-- The signature of the signed document is a true one. -/
theorem holds_question :
    (Envelope.question ⟨Envelope.lengthHeaderOf signedPayload.write,
      signedPayload.write, ownSignature⟩ signer.publicKey).holds
      = true := by
  decide +kernel

/-- The signed document is accepted by the standard judge. -/
theorem run_verify_signed :
    (signedSetup.verify 1700000000 .any .any
      (Envelope.assemble signedPayload.write ownSignature)).run Query.holds
      = .ok signedStatement := by
  have hnow : (1700000000 : UInt64) < signedSetup.anchor.expiresAt := by
    decide
  have hlength : signedPayload.write.length < 65536 := by decide +kernel
  have he := Envelope.read_assemble hlength ownSignature
  have hread := (trace_eq_iff.1 trace_read_signed).1
  have hends : (signedSetup.verify 1700000000 .any .any
      (Envelope.assemble signedPayload.write ownSignature)).Ends _
      (.ok signedStatement) :=
    Setup.verify_ends_ok_iff.2 ⟨hnow, _, [], he, hread, rfl, rfl⟩
  refine run_eq_iff.2 ⟨_, hends, ?_⟩
  intro call hcall
  cases List.mem_singleton.1 hcall
  exact holds_question.symm

def input : Input :=
  ⟨"d", .raw, false, none⟩

theorem verifies {entries : List (UInt8 × Pcr)}
    (h : (Expectations.ofList entries).accept signedStatement.pcrs
      = true) :
    CommandLine.Verifies world input none entries signedStatement :=
  ⟨_, signedSetup, rfl, rfl,
    Setup.run_verify_of_accepts run_verify_signed h⟩

/-- What follows the command: the file, and expectations. -/
def line (values : List String) : List String :=
  "d" :: values.map ("--expect-pcr=" ++ ·)

/-- A line with expectations says just these and the name of the file.
-/
theorem says_line {values : List String} {entries : List (UInt8 × Pcr)}
    (h : values.mapM CommandLine.stated? = some entries) :
    CommandLine.Says (line values) false entries
      ⟨some "d", none, false, none, none, []⟩ := by
  have hvalues : CommandLine.spell? .verify none
      (values.map ("--expect-pcr=" ++ ·))
      = some ⟨values.map (.choice .expectPcr), false⟩ := by
    clear h
    induction values with
    | nil => rfl
    | cons value values ih =>
      rw [List.map_cons, CommandLine.spell?_attached, ih]
      rfl
  have hfile : CommandLine.spell? .verify none (line values)
      = some ⟨.file "d" :: values.map (.choice .expectPcr), false⟩ := by
    have hplain : CommandLine.Word.classify "d" = .plain := by decide
    rw [line, CommandLine.spell?_plain hplain, hvalues]
    rfl
  refine ⟨.file "d" :: values.map (.choice .expectPcr), hfile, ?_, ?_⟩
  · have hsame : CommandLine.expectations
        (.file "d" :: values.map (.choice .expectPcr)) = values := by
      rw [CommandLine.expectations, List.filterMap_cons_none rfl,
        List.filterMap_map]
      exact List.filterMap_some
    rw [hsame, h]
  · have hothers : CommandLine.others
        (.file "d" :: values.map (.choice .expectPcr)) = [.file "d"] := by
      simp [CommandLine.others, CommandLine.Item.expectation?]
    rw [hothers]
    rfl

/-- The register 0 with nothing but zeros, as the document has it. -/
def expectZeros : String :=
  "0=" ++ String.ofList (List.replicate 96 '0')

/-- The same register with nothing but ones. -/
def expectOnes : String :=
  "0=" ++ String.ofList (List.replicate 96 '1')

theorem stated?_zeros :
    CommandLine.stated? expectZeros = some (0, .ofNat 48 0) := by
  decide +kernel

theorem stated?_ones :
    CommandLine.stated? expectOnes
      = some (0, ⟨List.replicate 48 0x11, by simp⟩) := by
  decide +kernel

theorem says_ones :
    CommandLine.Says (line [expectOnes]) false
      [(0, ⟨List.replicate 48 0x11, by simp⟩)]
      ⟨some "d", none, false, none, none, []⟩ := by
  refine says_line ?_
  rw [List.mapM_cons, stated?_ones]
  rfl

theorem says_ones_zeros :
    CommandLine.Says (line [expectOnes, expectZeros]) false
      [(0, ⟨List.replicate 48 0x11, by simp⟩), (0, .ofNat 48 0)]
      ⟨some "d", none, false, none, none, []⟩ := by
  refine says_line ?_
  rw [List.mapM_cons, List.mapM_cons, stated?_ones, stated?_zeros]
  rfl

/-- The document has no ones there. -/
theorem exitCode_ones :
    (CommandLine.run world ("verify" :: line [expectOnes])).exitCode ≠ 0 := by
  intro h
  rcases CommandLine.ends_of_exitCode h with ⟨entries, g, hsays⟩
    | ⟨entries, g, i, s, hsays, hinput, hverifies⟩
  · cases (says_ones.unique hsays).1
  · obtain ⟨-, rfl, rfl⟩ := says_ones.unique hsays
    cases hinput
    -- without the expectation it is the signed document's statement
    have hall (pcrs : Pcrs) : (Expectations.ofList []).accept pcrs = true :=
      rfl
    obtain rfl := (verifies (hall _)).unique
      (hverifies.of_accepts (hall s.pcrs))
    exact absurd hverifies.accepts (by decide +kernel)

theorem run_ones_zeros :
    CommandLine.run world ("verify" :: line [expectOnes, expectZeros])
      = CommandLine.accepted signedStatement :=
  CommandLine.run_of_verifies says_ones_zeros rfl
    (verifies (by decide +kernel))

end SmallChain

namespace CommandLine

open SmallChain

/-- Expectations on a line are not lost, but for the earlier ones of
those that are for the same register.

A run of the command to verify that does not fail has read them all, and
it prints how the program is used, or a report that has the value of
each one at the register it is for, unless a later one is for the same
register. And one more expectation makes no run good that fails without
it, wherever it is put before two bare dashes, unless there is another
one for its register. -/
theorem run_verify_expecting (world : Surroundings) :
    (∀ arguments,
      (run world ("verify" :: arguments)).exitCode = 0 →
      ∃ entries, expectedOn? arguments = some entries
        ∧ (run world ("verify" :: arguments) = ⟨0, usage, ""⟩
          ∨ ∃ s, run world ("verify" :: arguments) = accepted s
            ∧ ∀ earlier index value later,
              entries = earlier ++ (index, value) :: later →
              (∀ entry ∈ later, entry.1 ≠ index) → Shows s index value))
      ∧ ∀ before after value spelling,
        "--" ∉ before → spelling ∈ spellings value →
        (run world ("verify" :: (before ++ after))).exitCode ≠ 0 →
        (run world ("verify" :: (before ++ spelling ++ after))).exitCode
          = 0 →
        ∃ entries entry, expectedOn? (before ++ after) = some entries
          ∧ stated? value = some entry
          ∧ ∃ other ∈ entries, other.1 = entry.1 := by
  refine ⟨fun arguments h => ?_,
    fun before after value spelling hbefore hspelling hfails h => ?_⟩
  · rcases ends_of_exitCode h with ⟨entries, g, hsays⟩
      | ⟨entries, g, input, s, hsays, hinput, hverifies⟩
    · exact ⟨entries, hsays.expectedOn_eq, Or.inl (run_of_help hsays)⟩
    · refine ⟨entries, hsays.expectedOn_eq, Or.inr ⟨s,
        run_of_verifies hsays hinput hverifies, ?_⟩⟩
      rintro earlier index value later rfl hlater
      have haccepts := Expectations.accept_ofList_iff.1 hverifies.accepts
      exact shows_of_get?
        (haccepts index value (Expectations.lastFor_of_later hlater))
  · -- a run without the expectation would not fail
    rcases ends_of_exitCode h with ⟨entries, g, hsays⟩
      | ⟨entries, g, input, s, hsays, hinput, hverifies⟩
    · rcases hsays.of_insert hbefore hspelling with ⟨hsame, -⟩
        | ⟨first, entry, later, -, -, hless⟩
      · exact absurd (congrArg Outcome.exitCode (run_of_help hsame)) hfails
      · exact absurd (congrArg Outcome.exitCode (run_of_help hless)) hfails
    · rcases hsays.of_insert hbefore hspelling with ⟨-, hhelp⟩
        | ⟨first, ⟨index, v⟩, later, hstated, rfl, hless⟩
      · cases hhelp
      refine ⟨first ++ later, (index, v), hless.expectedOn_eq, hstated, ?_⟩
      by_contra hother
      have hne : ∀ other ∈ first ++ later, other.1 ≠ index :=
        fun other hmem hsame => hother ⟨other, hmem, hsame⟩
      have haccepts := Expectations.accept_ofList_iff.1 hverifies.accepts
      refine hfails (congrArg Outcome.exitCode (run_of_verifies hless hinput
        (hverifies.of_accepts ?_)))
      refine Expectations.accept_ofList_iff.2 fun i w hlast => ?_
      have hi : i ≠ index := hne _ (Expectations.mem_of_lastFor hlast)
      exact haccepts i w ((Expectations.lastFor_insert hi).trans hlast)

/-- Of two expectations for one register only the later counts. The
document has zeros in the register 0, so a line that expects ones fails;
but it does not fail any more when zeros are expected after them. -/
theorem exitCode_of_repeated :
    stated? expectOnes = some (0, ⟨List.replicate 48 0x11, by simp⟩)
      ∧ ¬Shows signedStatement 0 ⟨List.replicate 48 0x11, by simp⟩
      ∧ (run world ("verify" :: line [expectOnes])).exitCode ≠ 0
      ∧ run world ("verify" :: line [expectOnes, expectZeros])
        = accepted signedStatement := by
  refine ⟨stated?_ones, ?_, exitCode_ones, run_ones_zeros⟩
  rintro ⟨fields, hfields, hlookup⟩
  cases hfields
  have hzeros : signedStatement.pcrs.pcr0 = .ofNat 48 0 := rfl
  have hshown : some (Report.bytes signedStatement.pcrs.pcr0.toList)
      = some (Report.bytes (List.replicate 48 0x11)) := hlookup
  rw [hzeros] at hshown
  have htext := Json.text.inj (Option.some.inj hshown)
  exact absurd htext (by decide +kernel)

end CommandLine

end Attestation
