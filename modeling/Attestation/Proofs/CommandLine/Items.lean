/-
What a command line says, apart from the order in which it is looked at.
`spell?` cuts the arguments of a command into items, each a file, an
option with its value, or the flag, up to the end or to a request for
help; and each item is settled as it comes. Reading is lazier: a value
that stands apart is settled only when the argument after it is
recognised. That decides which of several mistakes is reported, but not
whether there is one, nor what is asked for (`asked_read`).

The statement compares a fold over the arguments with a recursion on
them, and the two are out of step by the pending item. `State.outcome`
closes the gap: it settles what is pending, as an item, and then what
the arguments ahead spell (`State.ahead`), and the induction shows that
the fold comes to it from every sound state. A state is sound if a file
whose name is pending is the first one (`State.Sound`); a second one is
refused when it is read, and so never becomes pending.

What is compared is therefore not errors. `asked` forgets which mistake
was made, so that two readings that stop at different mistakes count as
the same; what is left are three answers, a mistake, a request for help
and what is settled. In particular a request for help counts only if no
item before it is a mistake, on both sides.

Each kind of word has its lemma, in pairs: one for the fold
(`asked_...`) and one for what it should come to (`outcome_...`). They
are put together in `asked_read_word`, which is the step, and
`asked_read` is the induction. Everything else about command lines is
proved from there, about items and not about the order of reading.
-/
import Attestation.CommandLine.Arguments

namespace Attestation

namespace CommandLine

-- ============================================================ items

/-- What a part of a command line says. -/
inductive Item where
  | file (name : String)
  | choice (choice : Choice) (value : String)
  | fullChain
deriving DecidableEq

/-- Settles an item, if there is no mistake in it. -/
def Given.add (g : Given) : Item → Option Given
  | .file name =>
    if g.file = none ∧ name ≠ "" then some { g with file := some name }
    else none
  | .choice choice value => (g.settle choice value).toOption
  | .fullChain =>
    if g.fullChain = false then some { g with fullChain := true }
    else none

/-- The items up to the end of a command line, or to a request for
help. -/
structure Reading where
  items : List Item
  help : Bool
deriving DecidableEq

/-- The reading with items in front. -/
def Reading.after (items : List Item) (r : Reading) : Reading :=
  ⟨items ++ r.items, r.help⟩

/-- What a reading asks for if there is no mistake in its items: help,
or what they settle. -/
def Reading.settle (r : Reading) (g : Given) : Option (Option Given) :=
  (r.items.foldlM Given.add g).map fun g =>
    if r.help then none else some g

/-- Items in front are settled first. -/
theorem Reading.settle_after (items : List Item) (r : Reading)
    (g : Given) :
    (r.after items).settle g
      = (items.foldlM Given.add g).bind r.settle := by
  simp only [settle, after, List.foldlM_append]
  cases items.foldlM Given.add g <;> rfl

/-- Cuts arguments into items, the first of them the value of an option
if one awaits it. -/
def spell? (command : Command) :
    (awaiting : Option Choice) → List String → Option Reading
  | none, [] => some ⟨[], false⟩
  | some _, [] => none
  | some choice, word :: rest =>
    if Word.classify word = .plain then
      (spell? command none rest).map (.after [.choice choice word])
    else none
  | none, word :: rest =>
    match Word.classify word with
    | .escape => some ⟨rest.map .file, false⟩
    | .plain => (spell? command none rest).map (.after [.file word])
    | .short letter => if letter = 'h' then some ⟨[], true⟩ else none
    | .long name attached =>
      match command.options.lookup name, attached with
      | some (.option choice), some value =>
        (spell? command none rest).map (.after [.choice choice value])
      | some (.option choice), none => spell? command (some choice) rest
      | some .fullChain, none =>
        (spell? command none rest).map (.after [.fullChain])
      | some _, none => some ⟨[], true⟩
      | _, _ => none

section

variable {command : Command} {choice : Choice} {word name : String}
  {attached : Option String} {letter : Char} {rest : List String}

theorem spell?_nil : spell? command none [] = some ⟨[], false⟩ :=
  rfl

theorem spell?_value_nil : spell? command (some choice) [] = none :=
  rfl

/-- No value but a plain word is taken where one is awaited. -/
theorem spell?_value :
    spell? command (some choice) (word :: rest)
      = if Word.classify word = .plain then
          (spell? command none rest).map (.after [.choice choice word])
        else none :=
  rfl

theorem spell?_escape (h : Word.classify word = .escape) :
    spell? command none (word :: rest)
      = some ⟨rest.map .file, false⟩ := by
  rw [spell?, h]

theorem spell?_plain (h : Word.classify word = .plain) :
    spell? command none (word :: rest)
      = (spell? command none rest).map (.after [.file word]) := by
  rw [spell?, h]

theorem spell?_short (h : Word.classify word = .short letter) :
    spell? command none (word :: rest)
      = if letter = 'h' then some ⟨[], true⟩ else none := by
  rw [spell?, h]

theorem spell?_long : Word.classify word = .long name attached →
    spell? command none (word :: rest)
      = match command.options.lookup name, attached with
        | some (.option choice), some value =>
          (spell? command none rest).map (.after [.choice choice value])
        | some (.option choice), none => spell? command (some choice) rest
        | some .fullChain, none =>
          (spell? command none rest).map (.after [.fullChain])
        | some _, none => some ⟨[], true⟩
        | _, _ => none := by
  intro h
  rw [spell?, h]

end

-- ========================================================== pending

/-- What is pending, as items. -/
def Pending.items : Pending → List Item
  | .nothing => []
  | .file name => [.file name]
  | .option choice (some value) => [.choice choice value]
  | .option _ none => []

/-- The option whose value is still to come. -/
def Pending.awaiting : Pending → Option Choice
  | .option choice none => some choice
  | _ => none

namespace State

/-- Reading makes a file pending only where there is none. -/
def Sound (s : State) : Prop :=
  ∀ name, s.pending = .file name → s.given.file = none

/-- Settling what is pending is settling it as items, except that a
value may be missing. -/
theorem toOption_settle {s : State} (h : s.Sound) :
    (s.pending.settle s.given).toOption
      = if s.pending.awaiting = none then
          s.pending.items.foldlM Given.add s.given
        else none := by
  obtain ⟨g, pending, escaped⟩ := s
  cases pending with
  | nothing => rfl
  | file name =>
    have hfile : g.file = none := h name rfl
    show (require (name ≠ "") (UsageError.missingValue .file) >>= fun _ =>
        .ok { g with file := some name }).toOption
      = (g.add (.file name) >>= pure)
    rw [bind_pure, require_bind, Given.add]
    by_cases hname : name ≠ ""
    · rw [if_pos hname, if_pos ⟨hfile, hname⟩]
      rfl
    · rw [if_neg hname, if_neg fun hall => hname hall.2]
      rfl
  | option choice value =>
    cases value with
    | none => rfl
    | some value =>
      simp [Pending.settle, Pending.items, Pending.awaiting, Given.add]

/-- The items in the arguments that follow: after two bare dashes all of
them are files, and no value can follow any more. -/
def ahead (command : Command) (s : State) (arguments : List String) :
    Option Reading :=
  if s.escaped then
    if s.pending.awaiting = none then
      some ⟨arguments.map .file, false⟩
    else none
  else spell? command s.pending.awaiting arguments

/-- What a state and the arguments that follow ask for, if there is no
mistake in them. -/
def outcome (command : Command) (s : State) (arguments : List String) :
    Option (Option Given) :=
  (s.ahead command arguments).bind fun r =>
    (s.pending.items.foldlM Given.add s.given).bind r.settle

/-- The state once what is pending is settled. -/
def clean (s : State) (g : Given) : State :=
  ⟨g, .nothing, s.escaped⟩

/-- It does not matter whether what is pending is settled now. -/
theorem outcome_eq {command : Command} {s : State}
    {arguments : List String} (h : s.pending.awaiting = none) :
    s.outcome command arguments
      = (s.pending.items.foldlM Given.add s.given).bind fun g =>
          (s.clean g).outcome command arguments := by
  have hahead (g : Given) : (s.clean g).ahead command arguments
      = s.ahead command arguments := by
    unfold ahead clean
    rw [h]
    rfl
  simp only [outcome, hahead]
  cases s.ahead command arguments with
  | none => cases s.pending.items.foldlM Given.add s.given <;> rfl
  | some r => rfl

end State

-- ========================================================== reading

/-- What is asked for when reading ends, but for the mistake if there is
one. -/
def asked : Except Halt State → Option (Option Given)
  | .ok s => some (some s.given)
  | .error .help => some none
  | .error _ => none

section

variable {command : Command} {s : State} {word : String}
  {rest : List String} {next : State → Except Halt State}

/-- To show that a step which settles what is pending goes right, it
may be taken for settled. -/
theorem asked_settled (h : s.Sound) {arguments : List String}
    (hmissing : s.pending.awaiting ≠ none →
      s.outcome command arguments = none)
    (hclean : ∀ g, s.pending.items.foldlM Given.add s.given = some g →
      asked (next (s.clean g)) = (s.clean g).outcome command arguments) :
    asked (s.settled >>= next) = s.outcome command arguments := by
  have hsettle := State.toOption_settle h
  by_cases hnone : s.pending.awaiting = none
  · rw [if_pos hnone] at hsettle
    rw [State.outcome_eq hnone, ← hsettle, State.settled]
    cases hgiven : s.pending.settle s.given with
    | error e => rfl
    | ok g =>
      rw [hgiven] at hsettle
      exact hclean g hsettle.symm
  · rw [if_neg hnone] at hsettle
    rw [hmissing hnone, State.settled]
    cases hgiven : s.pending.settle s.given with
    | error e => rfl
    | ok g =>
      rw [hgiven] at hsettle
      cases hsettle

/-- An item that names a file leaves it named. -/
theorem file_of_add {g g' : Given} {name : String}
    (h : g.add (.file name) = some g') : g'.file = some name := by
  rw [Given.add] at h
  split at h
  · cases h
    rfl
  · cases h

/-- Options leave the file alone. -/
theorem file_of_settle {g g' : Given} {choice : Choice} {value : String}
    (h : g.settle choice value = .ok g') : g'.file = g.file := by
  cases choice with
  | format =>
    obtain ⟨_, -, h⟩ := bind_eq_ok_iff.1 h
    obtain ⟨_, -, h⟩ := bind_eq_ok_iff.1 h
    obtain ⟨_, -, h⟩ := bind_eq_ok_iff.1 h
    cases h
    rfl
  | now =>
    obtain ⟨_, -, h⟩ := bind_eq_ok_iff.1 h
    obtain ⟨_, -, h⟩ := bind_eq_ok_iff.1 h
    cases h
    rfl
  | maxAge =>
    obtain ⟨_, -, h⟩ := bind_eq_ok_iff.1 h
    obtain ⟨_, -, h⟩ := bind_eq_ok_iff.1 h
    cases h
    rfl
  | expectPcr =>
    obtain ⟨_, -, h⟩ := bind_eq_ok_iff.1 h
    cases h
    rfl

/-- Nothing that can be pending but a file settles which file is read.
-/
theorem file_of_pending {g : Given}
    (hfile : ∀ name, s.pending ≠ .file name)
    (h : s.pending.items.foldlM Given.add s.given = some g) :
    g.file = s.given.file := by
  obtain ⟨given, pending, escaped⟩ := s
  cases pending with
  | nothing =>
    cases h
    rfl
  | file name => exact absurd rfl (hfile name)
  | option choice value =>
    cases value with
    | none =>
      cases h
      rfl
    | some value =>
      simp only [Pending.items, List.foldlM_cons, List.foldlM_nil,
        Given.add] at h
      cases hsettle : given.settle choice value with
      | error e =>
        rw [hsettle] at h
        cases h
      | ok g' =>
        rw [hsettle] at h
        cases h
        exact file_of_settle hsettle

/-- A second file is a mistake. -/
theorem outcome_second_file {g : Given} {escaped : Bool}
    (h : g.file ≠ none) :
    (State.mk g (.file word) escaped).outcome command rest = none := by
  have hadd : g.add (.file word) = none :=
    if_neg fun hall => h hall.1
  simp [State.outcome, Pending.items, hadd]

/-- Where nothing is pending a plain word becomes a pending file. -/
theorem outcome_plain {g : Given} {escaped : Bool}
    (hword : escaped = true ∨ Word.classify word = .plain) :
    (State.mk g .nothing escaped).outcome command (word :: rest)
      = (State.mk g (.file word) escaped).outcome command rest := by
  cases escaped with
  | true => exact Reading.settle_after [.file word] ⟨rest.map .file, false⟩ g
  | false =>
    have hplain : Word.classify word = .plain := by simpa using hword
    show (spell? command none (word :: rest)).bind _
      = (spell? command none rest).bind _
    rw [spell?_plain hplain]
    cases spell? command none rest with
    | none => rfl
    | some r => exact Reading.settle_after [.file word] r g

/-- A plain word that is no value: the name of the only file. -/
theorem asked_settled_file (h : s.Sound)
    (hword : s.escaped = true ∨ Word.classify word = .plain)
    (hfile : ∀ name, s.pending ≠ .file name)
    (hmissing : s.pending.awaiting ≠ none →
      s.outcome command (word :: rest) = none)
    (hnext : ∀ s', s'.Sound → asked (next s') = s'.outcome command rest) :
    asked (((do
        require (s.given.file = none)
          (Halt.mistake (.unexpectedArgument word))
        let s ← s.settled
        return { s with pending := .file word }) :
          Except Halt State) >>= next)
      = s.outcome command (word :: rest) := by
  by_cases hnone : s.given.file = none
  · rw [require_bind, if_pos hnone, bind_assoc]
    refine asked_settled h hmissing fun g hg => ?_
    have hsame : g.file = none := (file_of_pending hfile hg).trans hnone
    show asked (next ⟨g, .file word, s.escaped⟩) = _
    rw [hnext _ fun _ _ => hsame]
    exact (outcome_plain hword).symm
  · rw [require_bind, if_neg hnone]
    by_cases hawaiting : s.pending.awaiting = none
    · rw [State.outcome_eq hawaiting]
      cases hg : s.pending.items.foldlM Given.add s.given with
      | none => rfl
      | some g =>
        have hsame := file_of_pending hfile hg
        rw [Option.bind_some, State.clean, outcome_plain hword,
          outcome_second_file (by rw [hsame]; exact hnone)]
        rfl
    · rw [hmissing hawaiting]
      rfl

/-- A plain word is a value where one is awaited, and otherwise a file.
-/
theorem asked_readPlain (h : s.Sound)
    (hword : s.escaped = true ∨ Word.classify word = .plain)
    (hnext : ∀ s', s'.Sound → asked (next s') = s'.outcome command rest) :
    asked (s.readPlain word >>= next)
      = s.outcome command (word :: rest) := by
  obtain ⟨g, pending, escaped⟩ := s
  cases pending with
  | nothing =>
    cases escaped <;>
      exact asked_settled_file h hword nofun (fun h => absurd rfl h) hnext
  | file name =>
    -- a second file is refused here, and as an item when it is settled
    have hrefused : asked ((State.mk g (.file name) escaped).readPlain word
        >>= next) = none := by
      cases escaped <;> rfl
    rw [hrefused, State.outcome_eq rfl]
    cases hg : [Item.file name].foldlM Given.add g with
    | none => exact (congrArg (Option.bind · _) hg).symm
    | some g' =>
      have hadd : g.add (.file name) = some g' := by simpa using hg
      have hfile : g'.file = some name := file_of_add hadd
      refine Eq.symm ((congrArg (Option.bind · _) hg).trans ?_)
      show (State.mk g' .nothing escaped).outcome command (word :: rest)
        = none
      rw [outcome_plain hword, outcome_second_file (by simp [hfile])]
  | option choice value =>
    cases value with
    | some value =>
      cases escaped <;>
        exact asked_settled_file h hword nofun (fun h => absurd rfl h) hnext
    | none =>
      cases escaped with
      | true =>
        exact asked_settled_file h hword nofun (fun _ => rfl) hnext
      | false =>
        have hplain : Word.classify word = .plain := by simpa using hword
        show asked (next ⟨g, .option choice (some word), false⟩) = _
        rw [hnext _ fun _ hfile => by cases hfile]
        show (spell? command none rest).bind _
          = (spell? command (some choice) (word :: rest)).bind _
        rw [spell?_value, if_pos hplain]
        cases spell? command none rest with
        | none => rfl
        | some r =>
          exact (Reading.settle_after [.choice choice word] r g).symm

/-- No value but a plain word is taken by an option that awaits one. -/
theorem outcome_missing (hescaped : s.escaped = false)
    (hword : Word.classify word ≠ .plain)
    (h : s.pending.awaiting ≠ none) :
    s.outcome command (word :: rest) = none := by
  obtain ⟨choice, hchoice⟩ := Option.ne_none_iff_exists'.1 h
  simp [State.outcome, State.ahead, hescaped, hchoice, spell?_value, hword]

/-- What spells nothing is a mistake whatever is pending. -/
theorem outcome_mistake (hescaped : s.escaped = false)
    (hword : Word.classify word ≠ .plain)
    (hspell : spell? command none (word :: rest) = none) :
    s.outcome command (word :: rest) = none := by
  by_cases h : s.pending.awaiting = none
  · simp [State.outcome, State.ahead, hescaped, h, hspell]
  · exact outcome_missing hescaped hword h

/-- A request for help is granted unless there was a mistake before. -/
theorem asked_help (h : s.Sound) (hescaped : s.escaped = false)
    (hword : Word.classify word ≠ .plain)
    (hspell : spell? command none (word :: rest) = some ⟨[], true⟩) :
    asked ((s.settled >>= fun _ => .error .help) >>= next)
      = s.outcome command (word :: rest) := by
  rw [bind_assoc]
  refine asked_settled h (outcome_missing hescaped hword) fun g hg => ?_
  have hahead : (s.clean g).ahead command (word :: rest)
      = some ⟨[], true⟩ := by
    simp [State.ahead, State.clean, hescaped, Pending.awaiting, hspell]
  rw [State.outcome, hahead]
  rfl

/-- An item that a word spells alone is settled at once. -/
theorem outcome_item {item : Item} (hescaped : s.escaped = false)
    (hspell : spell? command none (word :: rest)
      = (spell? command none rest).map (.after [item])) (g : Given) :
    (s.clean g).outcome command (word :: rest)
      = (g.add item).bind fun g' => (s.clean g').outcome command rest := by
  have hahead (g : Given) (arguments : List String) :
      (s.clean g).ahead command arguments = spell? command none arguments := by
    simp [State.ahead, State.clean, hescaped, Pending.awaiting]
  simp only [State.outcome, hahead, hspell]
  cases spell? command none rest with
  | none => cases g.add item <;> rfl
  | some r =>
    refine (Reading.settle_after [item] r g).trans ?_
    simp [State.clean, Pending.items]

theorem sound_clean (g : Given) : (s.clean g).Sound :=
  fun _ hfile => by cases hfile

/-- An option that stands apart from its value awaits it. -/
theorem asked_await {name : String} {choice : Choice} (h : s.Sound)
    (hescaped : s.escaped = false)
    (hword : Word.classify word = .long name none)
    (hlookup : command.options.lookup name = some (.option choice))
    (hnext : ∀ s', s'.Sound → asked (next s') = s'.outcome command rest) :
    asked (s.readOption (.option choice) none >>= next)
      = s.outcome command (word :: rest) := by
  have hlong : Word.classify word ≠ .plain := by
    rw [hword]
    nofun
  show asked ((s.settled >>= fun s =>
    .ok { s with pending := .option choice none }) >>= next) = _
  rw [bind_assoc]
  refine asked_settled h (outcome_missing hescaped hlong) fun g hg => ?_
  show asked (next ⟨g, .option choice none, s.escaped⟩) = _
  rw [hnext _ fun _ hfile => by cases hfile]
  simp [State.outcome, State.ahead, State.clean, hescaped,
    Pending.awaiting, Pending.items, spell?_long hword, hlookup]

/-- The flag takes no value, and is settled at once. -/
theorem asked_fullChain {name : String} (h : s.Sound)
    (hescaped : s.escaped = false)
    (hword : Word.classify word = .long name none)
    (hlookup : command.options.lookup name = some .fullChain)
    (hnext : ∀ s', s'.Sound → asked (next s') = s'.outcome command rest) :
    asked (s.readOption .fullChain none >>= next)
      = s.outcome command (word :: rest) := by
  have hlong : Word.classify word ≠ .plain := by
    rw [hword]
    nofun
  have hspell : spell? command none (word :: rest)
      = (spell? command none rest).map (.after [.fullChain]) := by
    simp [spell?_long hword, hlookup]
  show asked ((s.settled >>= fun s =>
    require (s.given.fullChain = false)
      (Halt.mistake (.repeated .fullChain)) >>= fun _ =>
    .ok { s with given.fullChain := true }) >>= next) = _
  rw [bind_assoc]
  refine asked_settled h (outcome_missing hescaped hlong) fun g hg => ?_
  rw [outcome_item hescaped hspell, Given.add, require_bind]
  by_cases hfull : g.fullChain = false
  · rw [if_pos hfull]
    show asked ((if g.fullChain = false then _ else _) >>= next) = _
    rw [if_pos hfull]
    exact hnext _ (sound_clean _)
  · rw [if_neg hfull]
    show asked ((if g.fullChain = false then _ else _) >>= next) = _
    rw [if_neg hfull]
    rfl

/-- An option with its value is settled at once. -/
theorem asked_attached {name value : String} {choice : Choice}
    (h : s.Sound) (hescaped : s.escaped = false)
    (hword : Word.classify word = .long name (some value))
    (hlookup : command.options.lookup name = some (.option choice))
    (hnext : ∀ s', s'.Sound → asked (next s') = s'.outcome command rest) :
    asked (s.readOption (.option choice) (some value) >>= next)
      = s.outcome command (word :: rest) := by
  have hlong : Word.classify word ≠ .plain := by
    rw [hword]
    nofun
  have hspell : spell? command none (word :: rest)
      = (spell? command none rest).map (.after [.choice choice value]) := by
    simp [spell?_long hword, hlookup]
  show asked ((s.settled >>= fun s =>
    (s.given.settle choice value).mapError Halt.mistake >>= fun given =>
    .ok { s with given := given }) >>= next) = _
  rw [bind_assoc]
  refine asked_settled h (outcome_missing hescaped hlong) fun g hg => ?_
  rw [outcome_item hescaped hspell, Given.add]
  show asked (((g.settle choice value).mapError Halt.mistake
    >>= fun given => .ok (s.clean given)) >>= next) = _
  cases g.settle choice value with
  | error e => rfl
  | ok g' => exact hnext _ (sound_clean g')

/-- An option that the command takes is what its argument says. -/
theorem asked_readOption {name : String} {argument : Argument}
    {attached : Option String} (h : s.Sound) (hescaped : s.escaped = false)
    (hword : Word.classify word = .long name attached)
    (hlookup : command.options.lookup name = some argument)
    (hnext : ∀ s', s'.Sound → asked (next s') = s'.outcome command rest) :
    asked (s.readOption argument attached >>= next)
      = s.outcome command (word :: rest) := by
  have hlong : Word.classify word ≠ .plain := by
    rw [hword]
    nofun
  cases attached with
  | none =>
    cases argument with
    | option choice => exact asked_await h hescaped hword hlookup hnext
    | fullChain => exact asked_fullChain h hescaped hword hlookup hnext
    | file | help | version =>
      refine asked_help h hescaped hlong ?_
      simp [spell?_long hword, hlookup]
  | some value =>
    cases argument with
    | option choice => exact asked_attached h hescaped hword hlookup hnext
    | file | fullChain | help | version =>
      refine Eq.symm (outcome_mistake hescaped hlong ?_)
      simp [spell?_long hword, hlookup]

/-- Two bare dashes leave what is pending to be settled later. -/
theorem outcome_escape (hescaped : s.escaped = false)
    (hword : Word.classify word = .escape) :
    s.outcome command (word :: rest)
      = ({ s with escaped := true } : State).outcome command rest := by
  have hdashes : Word.classify word ≠ .plain := by
    rw [hword]
    nofun
  by_cases h : s.pending.awaiting = none
  · simp [State.outcome, State.ahead, hescaped, h, spell?_escape hword]
  · rw [outcome_missing hescaped hdashes h]
    simp [State.outcome, State.ahead, h]

/-- The step: every word is read as what it spells. -/
theorem asked_read_word (h : s.Sound)
    (hnext : ∀ s', s'.Sound → asked (next s') = s'.outcome command rest) :
    asked (s.read command word >>= next)
      = s.outcome command (word :: rest) := by
  by_cases hescaped : s.escaped = true
  · have hread : s.read command word = s.readPlain word := by
      simp [State.read, hescaped]
    rw [hread]
    exact asked_readPlain h (Or.inl hescaped) hnext
  have hopen := eq_false_of_ne_true hescaped
  unfold State.read
  rw [if_neg hescaped]
  cases hword : Word.classify word with
  | escape =>
    rw [outcome_escape hopen hword]
    exact hnext _ h
  | plain => exact asked_readPlain h (Or.inr hword) hnext
  | short letter =>
    have hshort : Word.classify word ≠ .plain := by
      rw [hword]
      nofun
    by_cases hletter : letter = 'h'
    · subst hletter
      refine asked_help h hopen hshort ?_
      rw [spell?_short hword, if_pos rfl]
    · have hspell : spell? command none (word :: rest) = none := by
        rw [spell?_short hword, if_neg hletter]
      rw [outcome_mistake hopen hshort hspell]
      split
      case h_3 hh => exact absurd (Word.short.inj hh) hletter
      case h_4 => rfl
      all_goals contradiction
  | long name attached =>
    have hlong : Word.classify word ≠ .plain := by
      rw [hword]
      nofun
    dsimp only
    cases hlookup : command.options.lookup name with
    | none =>
      refine Eq.symm (outcome_mistake hopen hlong ?_)
      simp [spell?_long hword, hlookup]
    | some argument => exact asked_readOption h hopen hword hlookup hnext

/-- Reading comes to what the items ask for, and finds a mistake exactly
when there is one in them. -/
theorem asked_read (h : s.Sound) (arguments : List String) :
    asked (arguments.foldlM (State.read command) s >>= State.settled)
      = s.outcome command arguments := by
  induction arguments generalizing s with
  | nil =>
    show asked s.settled = _
    rw [← bind_pure s.settled]
    refine asked_settled h (fun hmissing => ?_) fun g _ => ?_
    · obtain ⟨choice, hchoice⟩ := Option.ne_none_iff_exists'.1 hmissing
      simp [State.outcome, State.ahead, hchoice, spell?_value_nil]
    · cases hescaped : s.escaped <;>
        simp [State.outcome, State.ahead, State.clean, hescaped,
          Pending.awaiting, Pending.items, spell?_nil, asked, Reading.settle,
          pure, Except.pure]
  | cons word rest ih =>
    rw [List.foldlM_cons, bind_assoc]
    exact asked_read_word h fun s' hs' => ih hs'

/-- Something is asked for exactly if the reading ends without a
mistake. -/
theorem asked_eq_ok_iff {x : Except Halt State} {g : Given} :
    asked x = some (some g) ↔ ∃ s, x = .ok s ∧ s.given = g := by
  rcases x with (e | _ | _) | s <;> simp [asked]

theorem asked_eq_help_iff {x : Except Halt State} :
    asked x = some none ↔ x = .error .help := by
  rcases x with (e | _ | _) | s <;> simp [asked]

end

-- ========================================================== a command

section

variable {command : Command} {arguments : List String}

/-- From the start a reading asks for what its items settle. -/
theorem asked_start (command : Command) (arguments : List String) :
    asked (arguments.foldlM (State.read command) State.start
        >>= State.settled)
      = (spell? command none arguments).bind fun r =>
          r.settle Given.nothing :=
  asked_read (fun _ hfile => by cases hfile) arguments

/-- What is pending at the end of a line is settled too. -/
theorem parseCommand_eq (command : Command) (arguments : List String) :
    parseCommand command arguments
      = (arguments.foldlM (State.read command) State.start
          >>= State.settled) >>= fun s =>
            (s.given.request command).mapError Halt.mistake := by
  rw [bind_assoc]
  rfl

/-- A command line is a request when it is cut into items up to its end,
there is no mistake in them, and they make up the request. -/
theorem parseCommand_eq_ok_iff {request : Request} :
    parseCommand command arguments = .ok request
      ↔ ∃ items g, spell? command none arguments = some ⟨items, false⟩
          ∧ items.foldlM Given.add Given.nothing = some g
          ∧ g.request command = .ok request := by
  have hasked := asked_start command arguments
  rw [parseCommand_eq]
  refine ⟨fun h => ?_, fun h => ?_⟩
  · obtain ⟨s, hs, h⟩ := bind_eq_ok_iff.1 h
    rw [hs] at hasked
    obtain ⟨⟨items, help⟩, hspell, hsettle⟩ :=
      Option.bind_eq_some_iff.1 hasked.symm
    obtain ⟨g, hg, hgiven⟩ := Option.map_eq_some_iff.1 hsettle
    cases help with
    | true => cases hgiven
    | false =>
      cases hgiven
      exact ⟨items, s.given, hspell, hg, mapError_eq_ok_iff.1 h⟩
  · obtain ⟨items, g, hspell, hg, h⟩ := h
    have hgiven : asked (arguments.foldlM (State.read command) State.start
        >>= State.settled) = some (some g) := by
      rw [hasked, hspell]
      simp [Reading.settle, hg]
    obtain ⟨s, hs, rfl⟩ := asked_eq_ok_iff.1 hgiven
    exact bind_eq_ok_iff.2 ⟨s, hs, mapError_eq_ok_iff.2 h⟩

/-- It asks for help when there is no mistake in the items before the
request for it. -/
theorem parseCommand_eq_help_iff :
    parseCommand command arguments = .error .help
      ↔ ∃ items g, spell? command none arguments = some ⟨items, true⟩
          ∧ items.foldlM Given.add Given.nothing = some g := by
  have hread : parseCommand command arguments = .error .help
      ↔ asked (arguments.foldlM (State.read command) State.start
          >>= State.settled) = some none := by
    rw [parseCommand_eq, asked_eq_help_iff]
    cases arguments.foldlM (State.read command) State.start
        >>= State.settled with
    | error halt =>
      show (.error halt : Except Halt Request) = _ ↔ _
      simp
    | ok s =>
      -- making up the request is no place to ask for help
      have hrequest : (s.given.request command).mapError Halt.mistake
          ≠ .error .help := by
        intro h
        cases hrequest : s.given.request command with
        | error e =>
          rw [hrequest] at h
          cases h
        | ok request =>
          rw [hrequest] at h
          cases h
      exact ⟨fun h => absurd h hrequest, nofun⟩
  rw [hread, asked_start, Option.bind_eq_some_iff]
  refine ⟨fun h => ?_, fun h => ?_⟩
  · obtain ⟨⟨items, help⟩, hspell, hsettle⟩ := h
    obtain ⟨g, hg, hhelp⟩ := Option.map_eq_some_iff.1 hsettle
    cases help with
    | true => exact ⟨items, g, hspell, hg⟩
    | false => cases hhelp
  · obtain ⟨items, g, hspell, hg⟩ := h
    exact ⟨_, hspell, by simp [Reading.settle, hg]⟩

end

end CommandLine

end Attestation
