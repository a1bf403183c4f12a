/-
The same arguments after either command. Both read them alike, but that
one command knows two options more: what is spelled for the command to
inspect is what is spelled for the command to verify, as long as neither
of those options is among it (`spell?_inspect`). And items settle an age
or an expectation only if there is one of these options among them
(`isCommon_foldlM`). So a line asks to inspect a document exactly when
it asks, with the other word in front, to verify it without a rule
(`parse_inspect_iff`).

Being common is a property of options, and is carried up from there to
arguments, items, readings and what is settled. The two directions come
together at the last: a line for the command to inspect has no uncommon
item because it could not be read, and a line for the command to verify
that settles no rule has none because it would have settled one.

The table of options of the one command is that of the other with the
two options taken out (`lookup_inspect`), so an option that only one of
them knows is unknown to the other and ends the reading. That an option
with a value takes two words makes this a little delicate, since the
value is read before anyone asks whether there is such an option; the
lemmas on filtering say that it does not matter.
-/
import Attestation.Proofs.CommandLine.Items

namespace Attestation

/-- Both commands take the option. -/
def Choice.isCommon : Choice → Bool
  | .format | .now => true
  | .maxAge | .expectPcr => false

/-- Both commands know the argument. -/
def Argument.isCommon : Argument → Bool
  | .option choice => choice.isCommon
  | .file | .fullChain | .help | .version => true

namespace CommandLine

def Item.isCommon : Item → Bool
  | .choice option _ => option.isCommon
  | .file _ | .fullChain => true

def Reading.isCommon (r : Reading) : Bool :=
  r.items.all Item.isCommon

variable {item : Item} {items : List Item} {g g' : Given}
  {arguments : List String} {input : Input}

-- ============================================================ words

/-- The options of the one command are those of the other, without two.
-/
theorem lookup_inspect (name : String) :
    Command.inspect.options.lookup name
      = (Command.verify.options.lookup name).filter
          Argument.isCommon := by
  by_cases hformat : name = "format"
  · subst hformat
    decide
  by_cases hnow : name = "now"
  · subst hnow
    decide
  by_cases hage : name = "max-age-secs"
  · subst hage
    decide
  by_cases hpcr : name = "expect-pcr"
  · subst hpcr
    decide
  by_cases hchain : name = "full-chain"
  · subst hchain
    decide
  by_cases hhelp : name = "help"
  · subst hhelp
    decide
  · have hnone (command : Command) :
        command.options.lookup name = none := by
      cases command <;>
        simp [Command.options, Command.options.named,
          Command.options.others, Choice.name, *]
    rw [hnone, hnone]
    rfl

/-- An item in front may keep a reading from being common. -/
theorem filter_after (x : Option Reading) (item : Item) :
    (x.map (.after [item])).filter Reading.isCommon
      = if item.isCommon then
          (x.filter Reading.isCommon).map (.after [item])
        else none := by
  cases x with
  | none => simp
  | some r =>
    have hafter : (r.after [item]).isCommon
        = (item.isCommon && r.isCommon) := rfl
    by_cases hitem : item.isCommon = true <;>
      by_cases hr : r.isCommon = true <;>
        simp [Option.filter, hafter, hitem, hr]

/-- An option that only one command knows leaves no common reading. -/
theorem filter_awaiting {choice : Choice} (h : ¬choice.isCommon = true) :
    (spell? .verify (some choice) arguments).filter Reading.isCommon
      = none := by
  cases arguments with
  | nil => rfl
  | cons word rest =>
    by_cases hword : Word.classify word = .plain
    · simp only [spell?_value, if_pos hword, filter_after]
      exact if_neg h
    · simp only [spell?_value, if_neg hword]
      rfl

section

variable {word name : String} {attached : Option String}
  {rest : List String}

/-- An option that only one command knows is a mistake to the other, and
to this one too or not common. -/
theorem spell?_inspect_unknown {choice : Choice}
    (hword : Word.classify word = .long name attached)
    (hverify : Command.verify.options.lookup name
      = some (.option choice))
    (hchoice : ¬choice.isCommon = true) :
    spell? .inspect none (word :: rest)
      = (spell? .verify none (word :: rest)).filter Reading.isCommon := by
  have hmissing : Command.inspect.options.lookup name = none := by
    rw [lookup_inspect, hverify]
    exact if_neg hchoice
  cases attached with
  | some value =>
    have hnone := (filter_after (spell? .verify none rest)
      (.choice choice value)).trans (if_neg hchoice)
    simp [spell?_long hword, hmissing, hverify, hnone]
  | none =>
    simp [spell?_long hword, hmissing, hverify, filter_awaiting hchoice]

/-- An option that both know is read alike if what follows it is. -/
theorem spell?_inspect_option {choice : Choice}
    (hword : Word.classify word = .long name attached)
    (hverify : Command.verify.options.lookup name
      = some (.option choice))
    (hchoice : choice.isCommon = true)
    (hrest : spell? .inspect none rest
      = (spell? .verify none rest).filter Reading.isCommon)
    (hvalue : spell? .inspect (some choice) rest
      = (spell? .verify (some choice) rest).filter Reading.isCommon) :
    spell? .inspect none (word :: rest)
      = (spell? .verify none (word :: rest)).filter Reading.isCommon := by
  have hboth : Command.inspect.options.lookup name
      = some (.option choice) := by
    rw [lookup_inspect, hverify]
    exact if_pos hchoice
  cases attached with
  | some value =>
    have hitem := (filter_after (spell? .verify none rest)
      (.choice choice value)).trans (if_pos hchoice)
    simp [spell?_long hword, hboth, hverify, hrest, hitem]
  | none => simpa [spell?_long hword, hboth, hverify] using hvalue

end

/-- By induction on the arguments. Where one of the two options comes
up, inspecting finds a mistake, and verifying finds one too or an item
that is not common. -/
theorem spell?_inspect (arguments : List String)
    (awaiting : Option Choice)
    (h : ∀ choice, awaiting = some choice → choice.isCommon = true) :
    spell? .inspect awaiting arguments
      = (spell? .verify awaiting arguments).filter Reading.isCommon := by
  induction arguments generalizing awaiting with
  | nil => cases awaiting <;> rfl
  | cons word rest ih =>
    have hrest := ih none nofun
    have hitem (item : Item) (hcommon : item.isCommon = true) :
        (spell? .inspect none rest).map (.after [item])
          = ((spell? .verify none rest).map (.after [item])).filter
              Reading.isCommon := by
      rw [filter_after, if_pos hcommon, hrest]
    cases awaiting with
    | some choice =>
      by_cases hword : Word.classify word = .plain
      · simpa [spell?_value, hword] using
          hitem (.choice choice word) (h choice rfl)
      · simp only [spell?_value, if_neg hword]
        rfl
    | none =>
      cases hword : Word.classify word with
      | escape =>
        have hfiles : (rest.map Item.file).all Item.isCommon = true := by
          simp [Item.isCommon]
        simp [spell?_escape hword, Option.filter, Reading.isCommon, hfiles]
      | plain => simpa [spell?_plain hword] using hitem (.file word) rfl
      | short letter =>
        by_cases hletter : letter = 'h' <;>
          simp [spell?_short hword, hletter, Option.filter, Reading.isCommon]
      | long name attached =>
        have hlookup := lookup_inspect name
        cases hverify : Command.verify.options.lookup name with
        | none =>
          rw [hverify] at hlookup
          simp [spell?_long hword, hlookup, hverify]
        | some argument =>
          rw [hverify, Option.filter_some] at hlookup
          cases argument with
          | option choice =>
            -- the only place where the two commands part
            by_cases hchoice : choice.isCommon = true
            · refine spell?_inspect_option hword hverify hchoice hrest
                (ih (some choice) fun other hother => ?_)
              cases hother
              exact hchoice
            · exact spell?_inspect_unknown hword hverify hchoice
          | fullChain =>
            have hboth := hlookup.trans (if_pos rfl)
            cases attached with
            | some value => simp [spell?_long hword, hboth, hverify]
            | none =>
              simpa [spell?_long hword, hboth, hverify] using
                hitem .fullChain rfl
          | file | help | version =>
            have hboth := hlookup.trans (if_pos rfl)
            cases attached <;>
              simp [spell?_long hword, hboth, hverify, Option.filter,
                Reading.isCommon]

-- ============================================================ items

/-- Neither an age nor an expectation was given. -/
def Given.IsCommon (g : Given) : Prop :=
  g.maxAge = none ∧ g.expected = []

/-- An item with a value is settled as the option that it is. -/
theorem settle_of_add {option : Choice} {value : String}
    (h : g.add (.choice option value) = some g') :
    g.settle option value = .ok g' := by
  rw [Given.add] at h
  cases hsettle : g.settle option value with
  | error e =>
    rw [hsettle] at h
    cases h
  | ok settled =>
    rw [hsettle] at h
    cases h
    rfl

/-- A value settles an age or an expectation only if its option is one.
-/
theorem isCommon_settle {option : Choice} {value : String}
    (h : g.settle option value = .ok g') :
    g'.IsCommon ↔ g.IsCommon ∧ option.isCommon = true := by
  unfold Given.IsCommon
  cases option with
  | format =>
    obtain ⟨_, -, h⟩ := bind_eq_ok_iff.1 h
    obtain ⟨_, -, h⟩ := bind_eq_ok_iff.1 h
    obtain ⟨_, -, h⟩ := bind_eq_ok_iff.1 h
    cases h
    simp [Choice.isCommon]
  | now =>
    obtain ⟨_, -, h⟩ := bind_eq_ok_iff.1 h
    obtain ⟨_, -, h⟩ := bind_eq_ok_iff.1 h
    cases h
    simp [Choice.isCommon]
  | maxAge =>
    obtain ⟨_, -, h⟩ := bind_eq_ok_iff.1 h
    obtain ⟨_, -, h⟩ := bind_eq_ok_iff.1 h
    cases h
    simp [Choice.isCommon]
  | expectPcr =>
    obtain ⟨_, -, h⟩ := bind_eq_ok_iff.1 h
    cases h
    simp [Choice.isCommon]

/-- After an item no age and no expectation was given exactly if there
was none before and the item is none. -/
theorem isCommon_add (h : g.add item = some g') :
    g'.IsCommon ↔ g.IsCommon ∧ item.isCommon = true := by
  cases item with
  | file name =>
    rw [Given.add] at h
    split at h
    · cases h
      exact (and_iff_left rfl).symm
    · cases h
  | fullChain =>
    rw [Given.add] at h
    split at h
    · cases h
      exact (and_iff_left rfl).symm
    · cases h
  | choice option value => exact isCommon_settle (settle_of_add h)

/-- By induction on the items: one that is not common leaves an age or
an expectation, and no other item takes it away. -/
theorem isCommon_foldlM (h : items.foldlM Given.add g = some g') :
    g'.IsCommon ↔ g.IsCommon ∧ items.all Item.isCommon = true := by
  induction items generalizing g with
  | nil =>
    cases h
    simp
  | cons item items ih =>
    obtain ⟨next, hnext, h⟩ := Option.bind_eq_some_iff.1 h
    rw [ih h, isCommon_add hnext, List.all_cons, Bool.and_eq_true,
      and_assoc]

-- ======================================================= whole lines

/-- What is settled asks to inspect exactly what it asks to verify. -/
theorem request_inspect_iff :
    g.request .inspect = .ok (.inspect input)
      ↔ g.request .verify = .ok (.verify input g.maxAge g.expected) := by
  unfold Given.request
  cases demand g.file UsageError.missingFile with
  | error e => simp [bind, Except.bind]
  | ok file => simp [bind, Except.bind, pure, Except.pure]

/-- The rules of a request are those that were settled. -/
theorem rules_of_request {maxAge : Option UInt64}
    {expected : List (UInt8 × Pcr)}
    (h : g.request .verify = .ok (.verify input maxAge expected)) :
    g.maxAge = maxAge ∧ g.expected = expected := by
  obtain ⟨file, -, h⟩ := bind_eq_ok_iff.1 h
  cases h
  exact ⟨rfl, rfl⟩

/-- A line asks to inspect a document exactly when the same arguments
ask to verify it without a rule. -/
theorem parse_inspect_iff :
    parse ("inspect" :: arguments) = .ok (.inspect input)
      ↔ parse ("verify" :: arguments) = .ok (.verify input none []) := by
  show parseCommand .inspect arguments = _
    ↔ parseCommand .verify arguments = _
  rw [parseCommand_eq_ok_iff, parseCommand_eq_ok_iff,
    spell?_inspect arguments none nofun]
  have hnothing : Given.nothing.IsCommon := ⟨rfl, rfl⟩
  refine ⟨fun h => ?_, fun h => ?_⟩
  · obtain ⟨items, g, hspell, hg, hrequest⟩ := h
    obtain ⟨hspell, hcommon⟩ := Option.filter_eq_some_iff.1 hspell
    obtain ⟨hage, hexpected⟩ :=
      (isCommon_foldlM hg).2 ⟨hnothing, hcommon⟩
    rw [request_inspect_iff, hage, hexpected] at hrequest
    exact ⟨items, g, hspell, hg, hrequest⟩
  · obtain ⟨items, g, hspell, hg, hrequest⟩ := h
    obtain ⟨hage, hexpected⟩ := rules_of_request hrequest
    obtain ⟨-, hcommon⟩ := (isCommon_foldlM hg).1 ⟨hage, hexpected⟩
    rw [← hage, ← hexpected] at hrequest
    exact ⟨items, g, Option.filter_eq_some_iff.2 ⟨hspell, hcommon⟩, hg,
      request_inspect_iff.2 hrequest⟩

/-- If the arguments ask for help after one command, they do so after
the other. -/
theorem parse_help_of_inspect
    (h : parse ("inspect" :: arguments) = .error .help) :
    parse ("verify" :: arguments) = .error .help := by
  have hhelp : parseCommand .inspect arguments = .error .help := h
  rw [parseCommand_eq_help_iff, spell?_inspect arguments none nofun] at hhelp
  obtain ⟨items, g, hspell, hg⟩ := hhelp
  exact parseCommand_eq_help_iff.2
    ⟨items, g, (Option.filter_eq_some_iff.1 hspell).1, hg⟩

end CommandLine

end Attestation
