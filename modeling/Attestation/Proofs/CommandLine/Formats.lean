/-
The encodings can be exchanged. Two command lines that differ in the
name after `--format` alone are read in step: what they settle differs
in the encoding, and no step looks at which encoding it is
(`inStep_read`). So they fail with the same mistake, or ask for the same
but for the encoding (`inStep_parse`); and then it does not matter in
which of them a document is kept (`run_in_encodings`).

That reading goes from left to right, with one word pending, is what
makes this more than a remark on the name. The encoding is pending when
it is read and settled a word later, together with whatever mistake is
found there; in between the two states differ in the pending word and
not in what is settled. `State.Differs` has both cases, and is the
invariant: every word that is read leads from two states that differ in
this way to two more, or to the same failure (`InStep`). The induction
over the words is that of `InStep.foldlM`, for the words before the
name, and again for those after it.

The name itself comes in two spellings, in one word and in two, and both
are followed from equal states to states that differ (`inStep_format`).
Behind two bare dashes it would be the name of a file; that no word
before it is two bare dashes is therefore assumed, and
`escaped_of_foldlM` says that nothing else has this effect.

Files enter at the end only. The document is found in whichever file is
named, if that file holds it in the encoding of its own line, so one
hypothesis on the files replaces the one on what is read.
-/
import Attestation.Proofs.CommandLine.Encodings
import Attestation.Proofs.CommandLine.Inspection

namespace Attestation

-- ===================================================== runs in step

/-- Both fail for the same reason, or both succeed and what they give is
related. -/
inductive InStep {ε α β : Type} (R : α → β → Prop) :
    Except ε α → Except ε β → Prop where
  | ok {a : α} {b : β} (h : R a b) : InStep R (.ok a) (.ok b)
  | error (e : ε) : InStep R (.error e) (.error e)

namespace InStep

variable {ε ε' α β γ δ : Type} {R : α → β → Prop} {S : γ → δ → Prop}

theorem same (x : Except ε α) : InStep Eq x x := by
  cases x with
  | ok a => exact .ok rfl
  | error e => exact .error e

/-- Steps that are in step, one after another. -/
theorem bind {x : Except ε α} {y : Except ε β} {f : α → Except ε γ}
    {g : β → Except ε δ} (h : InStep R x y)
    (hnext : ∀ a b, R a b → InStep S (f a) (g b)) :
    InStep S (x >>= f) (y >>= g) := by
  cases h with
  | ok h => exact hnext _ _ h
  | error e => exact .error e

/-- A step that is the same in both. -/
theorem after (x : Except ε α) {f : α → Except ε γ} {g : α → Except ε δ}
    (hnext : ∀ a, InStep S (f a) (g a)) : InStep S (x >>= f) (x >>= g) :=
  (same x).bind fun a _ h => h ▸ hnext a

theorem mapError {x : Except ε α} {y : Except ε β} (f : ε → ε')
    (h : InStep R x y) : InStep R (x.mapError f) (y.mapError f) := by
  cases h with
  | ok h => exact .ok h
  | error e => exact .error (f e)

/-- Steps that keep states related do so over a whole run. -/
theorem foldlM {read : α → γ → Except ε α} {read' : β → γ → Except ε β}
    (hread : ∀ a b word, R a b → InStep R (read a word) (read' b word))
    (words : List γ) {a : α} {b : β} (h : R a b) :
    InStep R (words.foldlM read a) (words.foldlM read' b) := by
  induction words generalizing a b with
  | nil => exact .ok h
  | cons word words ih =>
    rw [List.foldlM_cons, List.foldlM_cons]
    exact (hread a b word h).bind fun _ _ => ih

end InStep

/-- The request with another encoding. -/
def Request.withEncoding (e : Encoding) : Request → Request
  | .verify input maxAge expected =>
    .verify { input with encoding := e } maxAge expected
  | .inspect input => .inspect { input with encoding := e }

namespace CommandLine

variable {e e' : Encoding}

-- ==================================================== what is settled

/-- The same has been settled, but for the encoding. -/
def Given.Recoded (e e' : Encoding) (g g' : Given) : Prop :=
  g.encoding = some e ∧ g' = { g with encoding := some e' }

section

variable {g g' : Given}

/-- An encoding is settled once. -/
theorem Given.settle_repeated (h : g.encoding ≠ none) (value : String) :
    g.settle .format value = .error (.repeated (.option .format)) := by
  rw [Given.settle, require_bind, if_neg h]

/-- Settling a value does not look at the encoding, but at whether there
is one. -/
theorem Given.Recoded.settle (h : g.Recoded e e' g') (choice : Choice)
    (value : String) :
    InStep (Given.Recoded e e') (g.settle choice value)
      (g'.settle choice value) := by
  obtain ⟨hencoding, rfl⟩ := h
  cases choice with
  | format =>
    -- an encoding was chosen before, whichever it is
    have hsome : g.encoding ≠ none := by simp [hencoding]
    rw [Given.settle_repeated hsome,
      Given.settle_repeated (Option.some_ne_none e')]
    exact .error _
  | now =>
    exact .after (require (g.now = none) _) fun _ =>
      .after (number .now value) fun _ => .ok ⟨hencoding, rfl⟩
  | maxAge =>
    exact .after (require (g.maxAge = none) _) fun _ =>
      .after (number .maxAge value) fun _ => .ok ⟨hencoding, rfl⟩
  | expectPcr => exact .after _ fun _ => .ok ⟨hencoding, rfl⟩

/-- Settling what is pending does not look at the encoding either. -/
theorem Given.Recoded.settlePending (h : g.Recoded e e' g')
    (pending : Pending) :
    InStep (Given.Recoded e e') (pending.settle g) (pending.settle g') := by
  cases pending with
  | nothing => exact .ok h
  | file name =>
    obtain ⟨hencoding, rfl⟩ := h
    exact .after (require (name ≠ "") _) fun _ => .ok ⟨hencoding, rfl⟩
  | option choice value =>
    cases value with
    | none => exact .error _
    | some value => exact h.settle choice value

/-- The name of an encoding can be wrong only in coming twice. -/
theorem Given.settle_format (g : Given) (e : Encoding) :
    g.settle .format e.name
      = if g.encoding = none then .ok { g with encoding := some e }
        else .error (.repeated (.option .format)) := by
  have hname : e.name ≠ "" := by cases e <;> decide
  rw [Given.settle, require_bind, require_bind, if_pos hname,
    Encoding.ofName?_name]
  rfl

/-- Settling two encodings leads to states that differ in them, or to
the same mistake. -/
theorem inStep_settle_format (g : Given) :
    InStep (Given.Recoded e e') (g.settle .format e.name)
      (g.settle .format e'.name) := by
  rw [Given.settle_format, Given.settle_format]
  by_cases hnone : g.encoding = none
  · rw [if_pos hnone, if_pos hnone]
    exact .ok ⟨rfl, rfl⟩
  · rw [if_neg hnone, if_neg hnone]
    exact .error _

end

-- =========================================================== in step

/-- The same has been settled and is pending, but for the encoding that
was settled. -/
def State.Recoded (e e' : Encoding) (s s' : State) : Prop :=
  s.given.encoding = some e ∧ s' = { s with given.encoding := some e' }

/-- The same but for the encoding that was settled, or that is pending
with its name. -/
def State.Differs (e e' : Encoding) (s s' : State) : Prop :=
  s.Recoded e e' s'
    ∨ s.pending = .option .format (some e.name)
      ∧ s' = { s with pending := .option .format (some e'.name) }

section

variable {s s' : State}

/-- What was pending is settled alike, the name of an encoding among it.
-/
theorem inStep_settled (h : s.Differs e e' s') :
    InStep (State.Recoded e e') s.settled s'.settled := by
  have hnext (g g' : Given) (h : g.Recoded e e' g') :
      InStep (State.Recoded e e')
        (.ok { s with given := g, pending := .nothing } : Except Halt State)
        (.ok { s with given := g', pending := .nothing }) := by
    obtain ⟨hencoding, rfl⟩ := h
    exact .ok ⟨hencoding, rfl⟩
  rcases h with ⟨hencoding, rfl⟩ | ⟨hpending, rfl⟩
  · have hgiven : s.given.Recoded e e'
        { s.given with encoding := some e' } := ⟨hencoding, rfl⟩
    exact ((hgiven.settlePending s.pending).mapError _).bind hnext
  · rw [State.settled, hpending]
    exact ((inStep_settle_format s.given).mapError _).bind hnext

/-- A plain word that is no value: the name of the only file. -/
theorem inStep_file (h : s.Differs e e' s') (word : String) :
    InStep (State.Differs e e')
      (do
        require (s.given.file = none)
          (Halt.mistake (.unexpectedArgument word))
        let s ← s.settled
        return { s with pending := .file word })
      (do
        require (s'.given.file = none)
          (Halt.mistake (.unexpectedArgument word))
        let s ← s'.settled
        return { s with pending := .file word }) := by
  have hfile : s'.given.file = s.given.file := by
    rcases h with ⟨-, rfl⟩ | ⟨-, rfl⟩ <;> rfl
  rw [hfile]
  refine .after (require (s.given.file = none) _) fun _ => ?_
  refine (inStep_settled h).bind fun t t' ht => ?_
  obtain ⟨hencoding, rfl⟩ := ht
  exact .ok (Or.inl ⟨hencoding, rfl⟩)

/-- A plain word is read alike. -/
theorem inStep_readPlain (h : s.Differs e e' s') (word : String) :
    InStep (State.Differs e e') (s.readPlain word) (s'.readPlain word) := by
  have hfile := inStep_file h word
  obtain ⟨g, pending, escaped⟩ := s
  rcases h with ⟨hencoding, rfl⟩ | ⟨hpending, rfl⟩
  · cases pending with
    | nothing => cases escaped <;> exact hfile
    | file name => cases escaped <;> exact .error _
    | option choice value =>
      cases value with
      | some value => cases escaped <;> exact hfile
      | none =>
        cases escaped with
        | true => exact hfile
        | false => exact .ok (Or.inl ⟨hencoding, rfl⟩)
  · cases hpending
    cases escaped <;> exact hfile

/-- An option that the command takes is read alike. -/
theorem inStep_readOption (h : s.Differs e e' s') (argument : Argument)
    (attached : Option String) :
    InStep (State.Differs e e') (s.readOption argument attached)
      (s'.readOption argument attached) := by
  cases attached with
  | some value =>
    cases argument with
    | option choice =>
      refine (inStep_settled h).bind fun t t' ht => ?_
      obtain ⟨hencoding, rfl⟩ := ht
      have hgiven : t.given.Recoded e e'
          { t.given with encoding := some e' } := ⟨hencoding, rfl⟩
      refine ((hgiven.settle choice value).mapError _).bind
        fun g g' hg => ?_
      obtain ⟨hencoding, rfl⟩ := hg
      exact .ok (Or.inl ⟨hencoding, rfl⟩)
    | file | fullChain | help | version => exact .error _
  | none =>
    cases argument with
    | option choice =>
      refine (inStep_settled h).bind fun t t' ht => ?_
      obtain ⟨hencoding, rfl⟩ := ht
      exact .ok (Or.inl ⟨hencoding, rfl⟩)
    | fullChain =>
      refine (inStep_settled h).bind fun t t' ht => ?_
      obtain ⟨hencoding, rfl⟩ := ht
      exact .after (require (t.given.fullChain = false) _) fun _ =>
        .ok (Or.inl ⟨hencoding, rfl⟩)
    | file | help | version =>
      exact (inStep_settled h).bind fun _ _ _ => .error _

/-- Every word is read alike, whatever it looks like. -/
theorem inStep_read (command : Command) (h : s.Differs e e' s')
    (word : String) :
    InStep (State.Differs e e') (s.read command word)
      (s'.read command word) := by
  have hescaped : s'.escaped = s.escaped := by
    rcases h with ⟨-, rfl⟩ | ⟨-, rfl⟩ <;> rfl
  unfold State.read
  rw [hescaped]
  split
  case h_1 =>
    rcases h with ⟨hencoding, rfl⟩ | ⟨hpending, rfl⟩
    · exact .ok (Or.inl ⟨hencoding, rfl⟩)
    · exact .ok (Or.inr ⟨hpending, rfl⟩)
  case h_2 => exact inStep_readPlain h word
  case h_3 => exact inStep_readOption h .help none
  case h_4 => exact .error _
  case h_5 name attached _ =>
    cases command.options.lookup name with
    | none => exact .error _
    | some argument => exact inStep_readOption h argument attached

end

-- ====================================================== the two words

/-- The ways in which a line may say that a file is in an encoding. -/
def formats : List (Encoding → List String) :=
  [fun e => ["--format=" ++ e.name], fun e => ["--format", e.name]]

/-- Settling what is pending does not end the options. -/
theorem escaped_of_settled {s t : State} (h : s.settled = .ok t) :
    t.escaped = s.escaped := by
  obtain ⟨_, -, h⟩ := bind_eq_ok_iff.1 h
  cases h
  rfl

/-- A plain word does not end the options. -/
theorem escaped_of_readPlain {s t : State} {word : String}
    (h : s.readPlain word = .ok t) : t.escaped = s.escaped := by
  unfold State.readPlain at h
  split at h
  · cases h
    rfl
  · cases h
  · obtain ⟨_, -, h⟩ := bind_eq_ok_iff.1 h
    obtain ⟨_, hsettled, h⟩ := bind_eq_ok_iff.1 h
    cases h
    exact (escaped_of_settled hsettled :)

/-- An option does not end the options. -/
theorem escaped_of_readOption {s t : State} {argument : Argument}
    {attached : Option String}
    (h : s.readOption argument attached = .ok t) :
    t.escaped = s.escaped := by
  unfold State.readOption at h
  split at h
  · obtain ⟨_, hsettled, h⟩ := bind_eq_ok_iff.1 h
    obtain ⟨_, -, h⟩ := bind_eq_ok_iff.1 h
    cases h
    exact (escaped_of_settled hsettled :)
  · obtain ⟨_, hsettled, h⟩ := bind_eq_ok_iff.1 h
    cases h
    exact (escaped_of_settled hsettled :)
  · cases h
  · obtain ⟨_, hsettled, h⟩ := bind_eq_ok_iff.1 h
    obtain ⟨_, -, h⟩ := bind_eq_ok_iff.1 h
    cases h
    exact (escaped_of_settled hsettled :)
  · obtain ⟨_, -, h⟩ := bind_eq_ok_iff.1 h
    cases h

/-- Only two bare dashes make the rest of a line files. -/
theorem escaped_of_read {command : Command} {s t : State} {word : String}
    (hword : word ≠ "--") (h : s.read command word = .ok t) :
    t.escaped = s.escaped := by
  unfold State.read at h
  split at h
  case h_1 hescape =>
    by_cases hescaped : s.escaped = true
    · simp [hescaped] at hescape
    · rw [if_neg hescaped] at hescape
      exact absurd (classify_escape hescape) hword
  case h_2 => exact escaped_of_readPlain h
  case h_3 => exact escaped_of_readOption h
  case h_4 => cases h
  case h_5 name attached _ =>
    split at h
    · exact escaped_of_readOption h
    · cases h

/-- Without two bare dashes among them, words leave it open whether
there are options. -/
theorem escaped_of_foldlM {command : Command} {words : List String}
    {s t : State} (hwords : "--" ∉ words)
    (h : words.foldlM (State.read command) s = .ok t) :
    t.escaped = s.escaped := by
  induction words generalizing s with
  | nil =>
    cases h
    rfl
  | cons word words ih =>
    obtain ⟨hword, hwords⟩ := not_or.1 (mt List.mem_cons.2 hwords)
    obtain ⟨next, hnext, h⟩ := bind_eq_ok_iff.1 h
    exact (ih hwords h).trans (escaped_of_read (Ne.symm hword) hnext)

section

variable {command : Command} {s : State}

theorem lookup_format (command : Command) :
    command.options.lookup "format" = some (.option .format) := by
  cases command <;> decide

/-- In one word the encoding comes with its option. -/
theorem read_attached (h : s.escaped = false) (e : Encoding) :
    s.read command ("--format=" ++ e.name)
      = s.readOption (.option .format) (some e.name) := by
  have hword : Word.classify ("--format=" ++ e.name)
      = .long "format" (some e.name) := by
    cases e <;> decide
  simp [State.read, h, hword, lookup_format]

theorem read_apart (h : s.escaped = false) :
    s.read command "--format" = s.readOption (.option .format) none := by
  have hword : Word.classify "--format" = .long "format" none := by decide
  simp [State.read, h, hword, lookup_format]

theorem read_name (h : s.escaped = false)
    (hpending : s.pending = .option .format none) (e : Encoding) :
    s.read command e.name
      = .ok { s with pending := .option .format (some e.name) } := by
  have hword : Word.classify e.name = .plain := by cases e <;> decide
  simp [State.read, h, hword, State.readPlain, hpending]

/-- The two spellings with two names lead to states that differ in them.
-/
theorem inStep_format (hescaped : s.escaped = false)
    {format : Encoding → List String} (hformat : format ∈ formats) :
    InStep (State.Differs e e') ((format e).foldlM (State.read command) s)
      ((format e').foldlM (State.read command) s) := by
  simp only [formats, List.mem_cons, List.not_mem_nil, or_false] at hformat
  rcases hformat with rfl | rfl
  · simp only [List.foldlM_cons, List.foldlM_nil, bind_pure,
      read_attached hescaped]
    refine .after s.settled fun t => ?_
    refine ((inStep_settle_format t.given).mapError _).bind fun g g' hg => ?_
    obtain ⟨hencoding, rfl⟩ := hg
    exact .ok (Or.inl ⟨hencoding, rfl⟩)
  · simp only [List.foldlM_cons, List.foldlM_nil, bind_pure,
      read_apart hescaped, State.readOption]
    cases hsettled : s.settled with
    | error halt => exact .error halt
    | ok t =>
      let awaiting : State := { t with pending := .option .format none }
      have hopen : awaiting.escaped = false :=
        (escaped_of_settled hsettled).trans hescaped
      show InStep _ (awaiting.read command e.name)
        (awaiting.read command e'.name)
      rw [read_name hopen rfl, read_name hopen rfl]
      exact .ok (Or.inr ⟨rfl, rfl⟩)

end

-- ======================================================= whole lines

/-- The request differs only in the encoding. -/
def Recoded (e e' : Encoding) (r r' : Request) : Prop :=
  r.input.encoding = e ∧ r' = r.withEncoding e'

/-- A line with an encoding among its arguments. -/
def lineWith (command : Command) (before after : List String)
    (format : Encoding → List String) (e : Encoding) : List String :=
  command.name :: (before ++ format e ++ after)

/-- Two lines that differ in the name of the encoding alone ask for the
same, but for the encoding, or fail alike. -/
theorem inStep_parse (command : Command) {before : List String}
    (after : List String) (hbefore : "--" ∉ before)
    {format : Encoding → List String} (hformat : format ∈ formats)
    (e e' : Encoding) :
    InStep (Recoded e e')
      (parse (lineWith command before after format e))
      (parse (lineWith command before after format e')) := by
  have hparse (arguments : List String) :
      parse (command.name :: arguments) = parseCommand command arguments := by
    cases command <;> rfl
  rw [lineWith, lineWith, hparse, hparse]
  simp only [parseCommand, List.foldlM_append, bind_assoc]
  cases hstart : before.foldlM (State.read command) State.start with
  | error halt => exact .error halt
  | ok s =>
    have hescaped : s.escaped = false := escaped_of_foldlM hbefore hstart
    refine (inStep_format hescaped hformat).bind fun t t' ht => ?_
    refine (InStep.foldlM (fun _ _ word h => inStep_read command h word)
      after ht).bind fun u u' hu => ?_
    refine (inStep_settled hu).bind fun v v' hv => ?_
    obtain ⟨hencoding, rfl⟩ := hv
    refine .mapError _ ?_
    refine .after (demand v.given.file UsageError.missingFile)
      fun file => ?_
    have hold : v.given.encoding.getD .raw = e := by rw [hencoding]; rfl
    cases command <;> exact .ok ⟨hold, rfl⟩

section

variable {world : Surroundings}
  {files files' : String → Except FileFault Bytes}
  {document content content' : Bytes}

/-- A file that holds a document is read as it. -/
theorem readDocument_of_holds {input : Input}
    (hfile : world.file input.file = .ok content)
    (h : input.encoding.Holds document content) :
    Request.readDocument world input = .ok document := by
  rw [Request.readDocument, hfile]
  exact mapError_eq_ok_iff.2 (Encoding.decode_of_holds h)

/-- A request is carried out alike on a document that is kept in
another encoding. -/
theorem execute_recoded {r r' : Request} (h : Recoded e e' r r')
    (hfile : files r.input.file = .ok content)
    (hholds : e.Holds document content)
    (hfile' : files' r.input.file = .ok content')
    (hholds' : e'.Holds document content') :
    r.execute { world with file := files }
      = r'.execute { world with file := files' } := by
  obtain ⟨rfl, rfl⟩ := h
  have hfirst : Request.readDocument { world with file := files } r.input
      = .ok document := readDocument_of_holds hfile hholds
  have hsecond : Request.readDocument { world with file := files' }
      { r.input with encoding := e' } = .ok document :=
    readDocument_of_holds hfile' hholds'
  cases r with
  | verify input maxAge expected =>
    unfold Request.execute
    cases maxAge <;>
      exact (congrArg (· >>= _) hfirst).trans (congrArg (· >>= _) hsecond).symm
  | inspect input =>
    unfold Request.execute
    exact (congrArg (· >>= _) hfirst).trans (congrArg (· >>= _) hsecond).symm

end

/-- The file that a line names, if it asks for one, holds a document in
an encoding. -/
def Keeps (files : String → Except FileFault Bytes) (line : List String)
    (e : Encoding) (document : Bytes) : Prop :=
  ∀ request, parse line = .ok request →
    ∃ content, files request.input.file = .ok content
      ∧ e.Holds document content

/-- It does not matter how a document is kept. Of two lines that differ
only in the name of an encoding, before any two bare dashes, let each
name a file that holds the same document in its encoding. Then their
runs end in the same way, with the same exit code and the same texts.
And a text that is read as a document is, without the blanks around it,
a spelling of the document. -/
theorem run_in_encodings :
    (∀ (world : Surroundings)
        (files files' : String → Except FileFault Bytes)
        (document : Bytes) (command : Command)
        (before after : List String) (format : Encoding → List String)
        (e e' : Encoding),
      "--" ∉ before → format ∈ formats →
      Keeps files (lineWith command before after format e) e document →
      Keeps files' (lineWith command before after format e') e'
        document →
      run { world with file := files }
          (lineWith command before after format e)
        = run { world with file := files' }
          (lineWith command before after format e'))
      ∧ (∀ content document,
        Encoding.hex.decode content = .ok document →
        ∃ text, content = Utf8.encode text
          ∧ (Text.trim text).map Char.toLower = Hex.encode document)
      ∧ ∀ content document,
        Encoding.base64.decode content = .ok document →
        ∃ text, content = Utf8.encode text
          ∧ Text.trim text = Base64.text document := by
  refine ⟨fun world files files' document command before after format e e'
      hbefore hformat hkeeps hkeeps' => ?_,
    fun _ _ => Encoding.decode_hex_eq_ok_iff.1,
    fun _ _ => Encoding.decode_base64_eq_ok_iff.1⟩
  have hparse := inStep_parse command after hbefore hformat e e'
  generalize hline : parse (lineWith command before after format e) = x
    at hparse
  generalize hline' : parse (lineWith command before after format e') = y
    at hparse
  rw [run, run, hline, hline']
  cases hparse with
  | error halt => rfl
  | @ok r r' hrequest =>
    obtain ⟨content, hfile, hholds⟩ := hkeeps r hline
    obtain ⟨content', hfile', hholds'⟩ := hkeeps' r' hline'
    have hname : r'.input.file = r.input.file := by
      rw [hrequest.2]
      cases r <;> rfl
    rw [hname] at hfile'
    exact congrArg finished
      (execute_recoded hrequest hfile hholds hfile' hholds')

end CommandLine

namespace SmallChain

/-- The signed document as its file has it. -/
def signedDocument : Bytes :=
  Envelope.assemble signedPayload.write ownSignature

/-- The file with the document in Base64, and a line feed behind it. -/
def base64File (name : String) : Except FileFault Bytes :=
  if name = "d" then
    .ok (Utf8.encode (Base64.text signedDocument ++ ['\n']))
  else .error .notFound

/-- The line to verify the document in an encoding. -/
def lineIn : Encoding → List String :=
  CommandLine.lineWith .verify ["d"] [] fun e => ["--format", e.name]

theorem parse_lineIn (e : Encoding) :
    CommandLine.parse (lineIn e)
      = .ok (.verify ⟨"d", e, false, none⟩ none []) := by
  cases e <;> rfl

end SmallChain

namespace CommandLine

open SmallChain in
/-- The signed document is accepted as it is, and so it is in Base64. -/
theorem run_in_encodings_signed :
    Keeps world.file (lineIn .raw) .raw signedDocument
      ∧ Keeps base64File (lineIn .base64) .base64 signedDocument
      ∧ run { world with file := base64File } (lineIn .base64)
        = accepted signedStatement := by
  have hraw : Keeps world.file (lineIn .raw) .raw signedDocument := by
    intro request h
    rw [parse_lineIn] at h
    cases h
    exact ⟨_, rfl, rfl⟩
  have hbase64 : Keeps base64File (lineIn .base64) .base64
      signedDocument := by
    intro request h
    rw [parse_lineIn] at h
    cases h
    exact ⟨_, rfl, [], ['\n'], List.forall_mem_singleton.2 rfl, rfl⟩
  obtain ⟨hruns, -⟩ := run_in_encodings
  have hsame := hruns world base64File world.file signedDocument .verify
    ["d"] [] (fun e => ["--format", e.name]) .base64 .raw (by decide)
    (List.mem_cons_of_mem _ List.mem_cons_self) hbase64 hraw
  exact ⟨hraw, hbase64,
    hsame.trans (run_verify (parse_lineIn .raw) (verifies rfl))⟩

end CommandLine

end Attestation
