/-
Expectations about registers on a command line. Among the items they go
their own way: no other item is settled in another way because of them,
and they are collected in their order (`foldlM_add`). Among the
arguments one more of them is one more item, wherever it is put before
two bare dashes, or it is a mistake (`spell?_insert`).

The first half is about items and has the shape of a commuting square. A
state with the expectations left out, settled by an item of another
kind, is the state with them settled and then left out (`add_other`); an
expectation adds to the collection and touches nothing else
(`add_expectation`). By induction a row of items is two rows, one of
expectations and one of everything else, and each can be settled by
itself.

The second half is about arguments, where the words of an option come in
two spellings, with an equals sign or as two words. `Leaves` says what
reading some arguments amounts to, as a function of what is read after
them: adding items, or ending in a mistake or in a request for help. All
reading up to two bare dashes is of this kind (`leaves_spell?`), so
whatever is inserted after it ends up among the items, or nothing after
it counts. A word that has been cut in two by the insertion, an option
whose value comes next, is the case that is a mistake.
-/
import Attestation.Proofs.CommandLine.Items
import Attestation.Proofs.Trust.Expectations

namespace Attestation

namespace CommandLine

-- ==================================================== among the items

/-- The value of an expectation. -/
def Item.expectation? : Item → Option String
  | .choice .expectPcr value => some value
  | _ => none

/-- The values of the expectations among items. -/
def expectations (items : List Item) : List String :=
  items.filterMap Item.expectation?

/-- The items that are no expectations. -/
def others (items : List Item) : List Item :=
  items.filter fun item => item.expectation?.isNone

/-- The index and value of an expectation, if there is no mistake in
it. -/
def stated? (value : String) : Option (UInt8 × Pcr) :=
  (Expectation.parse value).toOption

/-- What was settled, with other expectations. -/
def Given.expecting (g : Given) (entries : List (UInt8 × Pcr)) : Given :=
  { g with expected := entries }

variable {g : Given} {item : Item} {items : List Item}
  {entries : List (UInt8 × Pcr)} {value : String}

/-- An expectation that can be read is put behind the others. -/
theorem add_expectation :
    (g.expecting entries).add (.choice .expectPcr value)
      = (stated? value).map fun entry =>
          g.expecting (entries ++ [entry]) := by
  show ((Expectation.parse value).mapError _ >>= fun entry =>
    .ok (g.expecting (entries ++ [entry]))).toOption = _
  unfold stated?
  cases Expectation.parse value <;> rfl

/-- The other options are settled whatever is expected. -/
theorem settle_other {choice : Choice} (h : choice ≠ .expectPcr) :
    (g.expecting entries).settle choice value
      = (g.settle choice value).map (·.expecting entries) := by
  cases choice with
  | expectPcr => exact absurd rfl h
  | format =>
    simp only [Given.settle, Given.expecting]
    by_cases hgiven : g.encoding = none
    · by_cases hvalue : value ≠ ""
      · cases Encoding.ofName? value <;>
          simp [require_bind, hgiven, hvalue] <;> rfl
      · simp [require_bind, hgiven, hvalue, Except.map]
    · simp [require_bind, hgiven, Except.map]
  | now =>
    simp only [Given.settle, Given.expecting]
    by_cases hgiven : g.now = none
    · cases number .now value <;> simp [require_bind, hgiven] <;> rfl
    · simp [require_bind, hgiven, Except.map]
  | maxAge =>
    simp only [Given.settle, Given.expecting]
    by_cases hgiven : g.maxAge = none
    · cases number .maxAge value <;> simp [require_bind, hgiven] <;> rfl
    · simp [require_bind, hgiven, Except.map]

/-- No other item is settled in another way because of expectations. -/
theorem add_other (h : item.expectation? = none) :
    (g.expecting entries).add item
      = (g.add item).map (·.expecting entries) := by
  cases item with
  | file name =>
    by_cases hfile : g.file = none ∧ name ≠ "" <;>
      simp [Given.add, Given.expecting, hfile]
  | fullChain =>
    by_cases hfull : g.fullChain = false <;>
      simp [Given.add, Given.expecting, hfull]
  | choice choice value =>
    have hother : choice ≠ .expectPcr := fun hsame => by
      rw [hsame] at h
      cases h
    rw [Given.add, settle_other hother, Given.add]
    cases g.settle choice value <;> rfl

/-- Expectations and other items do not look at each other. By induction
on the items: an expectation is put behind those before it, and
everything else is settled whatever is expected. -/
theorem foldlM_add (items : List Item) (g : Given)
    (entries : List (UInt8 × Pcr)) :
    items.foldlM Given.add (g.expecting entries)
      = ((expectations items).mapM stated?).bind fun stated =>
          ((others items).foldlM Given.add g).map
            (·.expecting (entries ++ stated)) := by
  induction items generalizing g entries with
  | nil => simp [expectations, others]
  | cons item items ih =>
    rw [List.foldlM_cons]
    cases hitem : item.expectation? with
    | some value =>
      obtain rfl : item = .choice .expectPcr value := by
        unfold Item.expectation? at hitem
        split at hitem
        · cases hitem
          rfl
        · cases hitem
      have hvalues : expectations (.choice .expectPcr value :: items)
          = value :: expectations items := rfl
      have hothers : others (.choice .expectPcr value :: items)
          = others items := rfl
      rw [add_expectation, hvalues, hothers, List.mapM_cons]
      cases stated? value with
      | none => rfl
      | some entry =>
        refine (ih g (entries ++ [entry])).trans ?_
        cases (expectations items).mapM stated? <;> simp
    | none =>
      have hvalues : expectations (item :: items)
          = expectations items := by
        simp [expectations, hitem]
      have hothers : others (item :: items) = item :: others items := by
        simp [others, hitem]
      rw [add_other hitem, hvalues, hothers, List.foldlM_cons]
      cases g.add item with
      | none =>
        cases (expectations items).mapM stated? <;> rfl
      | some g' => exact ih g' entries

-- ================================================ among the arguments

/-- What the first arguments make of those that follow: there is a
mistake in them, they ask for help, or they are items, and maybe an
option that awaits its value. -/
inductive Leaves (command : Command)
    (read : List String → Option Reading) : Prop where
  | mistake (h : ∀ after, read after = none)
  | help (items : List Item) (h : ∀ after, read after = some ⟨items, true⟩)
  | more (items : List Item) (awaiting : Option Choice)
      (h : ∀ after, read after
        = (spell? command awaiting after).map (.after items))

variable {command : Command} {before after spelling : List String}
  {r : Reading}

/-- An item more in front changes nothing in kind. -/
theorem Leaves.cons {read : List String → Option Reading}
    (h : Leaves command read) (item : Item) :
    Leaves command fun after => (read after).map (.after [item]) := by
  cases h with
  | mistake h => exact .mistake fun after => by simp [h]
  | help items h => exact .help (item :: items) fun after => by simp [h]; rfl
  | more items awaiting h =>
    refine .more (item :: items) awaiting fun after => ?_
    simp only [h, Option.map_map]
    rfl

/-- Only two bare dashes end the options. -/
theorem classify_escape {word : String}
    (h : Word.classify word = .escape) : word = "--" := by
  apply String.ext
  unfold Word.classify at h
  split at h
  case h_1 hword => exact hword
  all_goals cases h

/-- By induction on the first arguments; only after two bare dashes is
the rest read in another way. -/
theorem leaves_spell? (hbefore : "--" ∉ before)
    (awaiting : Option Choice) :
    Leaves command fun after =>
      spell? command awaiting (before ++ after) := by
  induction before generalizing awaiting with
  | nil =>
    refine .more [] awaiting fun after => ?_
    cases h : spell? command awaiting after <;> simp [h, Reading.after]
  | cons word before ih =>
    have hrest : "--" ∉ before := fun h => hbefore (.tail word h)
    cases awaiting with
    | some choice =>
      by_cases hword : Word.classify word = .plain
      · simpa [spell?_value, hword] using (ih hrest none).cons _
      · exact .mistake fun after => by simp [spell?_value, hword]
    | none =>
      cases hword : Word.classify word with
      | escape =>
        rw [classify_escape hword] at hbefore
        exact absurd (.head before) hbefore
      | plain => simpa [spell?_plain hword] using (ih hrest none).cons _
      | short letter =>
        by_cases hletter : letter = 'h'
        · exact .help [] fun after => by simp [spell?_short hword, hletter]
        · exact .mistake fun after => by simp [spell?_short hword, hletter]
      | long name attached =>
        cases hlookup : command.options.lookup name with
        | none =>
          exact .mistake fun after => by simp [spell?_long hword, hlookup]
        | some argument =>
          cases attached with
          | none =>
            cases argument with
            -- the value is in the next word, if there is one
            | option choice =>
              simpa [spell?_long hword, hlookup] using ih hrest (some choice)
            | fullChain =>
              simpa [spell?_long hword, hlookup] using (ih hrest none).cons _
            | file | help | version =>
              exact .help [] fun after => by simp [spell?_long hword, hlookup]
          | some value =>
            cases argument with
            | option choice =>
              simpa [spell?_long hword, hlookup] using (ih hrest none).cons _
            | file | fullChain | help | version =>
              exact .mistake fun after => by simp [spell?_long hword, hlookup]

/-- The ways in which an expectation may stand among arguments. -/
def spellings (value : String) : List (List String) :=
  [["--expect-pcr=" ++ value], ["--expect-pcr", value]]

/-- An expectation may be written in one word. -/
theorem classify_attached (value : String) :
    Word.classify ("--expect-pcr=" ++ value)
      = .long "expect-pcr" (some value) := by
  have hlist : ("--expect-pcr=" ++ value).toList
      = "--expect-pcr=".toList ++ value.toList := by
    simp
  unfold Word.classify
  rw [hlist]
  simp

/-- In two words, the first is the name of the option. -/
theorem classify_apart :
    Word.classify "--expect-pcr" = .long "expect-pcr" none := by
  decide

theorem lookup_expectPcr :
    Command.verify.options.lookup "expect-pcr"
      = some (.option .expectPcr) := by
  decide

/-- In one word an expectation is an item, whatever its value looks
like. -/
theorem spell?_attached (value : String) (after : List String) :
    spell? .verify none (("--expect-pcr=" ++ value) :: after)
      = (spell? .verify none after).map
          (.after [.choice .expectPcr value]) := by
  simp [spell?_long (classify_attached value), lookup_expectPcr]

/-- In two words it is an item if the second looks like a value. -/
theorem spell?_apart (value : String) (after : List String) :
    spell? .verify none ("--expect-pcr" :: value :: after)
      = if Word.classify value = .plain then
          (spell? .verify none after).map
            (.after [.choice .expectPcr value])
        else none := by
  simp [spell?_long classify_apart, lookup_expectPcr, spell?_value]

/-- Where no value is awaited a spelling is an item, and else it is a
mistake. -/
theorem spell?_spelling (h : spelling ∈ spellings value)
    {awaiting : Option Choice}
    (hr : spell? .verify awaiting (spelling ++ after) = some r) :
    awaiting = none ∧ ∃ r', spell? .verify none after = some r'
      ∧ r = r'.after [.choice .expectPcr value] := by
  simp only [spellings, List.mem_cons, List.not_mem_nil, or_false] at h
  cases awaiting with
  | some choice =>
    rcases h with rfl | rfl <;>
      simp [spell?_value, classify_attached, classify_apart] at hr
  | none =>
    refine ⟨rfl, ?_⟩
    rcases h with rfl | rfl
    · obtain ⟨r', hr', rfl⟩ := Option.map_eq_some_iff.1
        ((spell?_attached value after).symm.trans hr)
      exact ⟨r', hr', rfl⟩
    · have hapart := (spell?_apart value after).symm.trans hr
      split at hapart
      · obtain ⟨r', hr', rfl⟩ := Option.map_eq_some_iff.1 hapart
        exact ⟨r', hr', rfl⟩
      · cases hapart

/-- One more expectation is one more item, unless help was asked for
before it. -/
theorem spell?_insert (hbefore : "--" ∉ before)
    (h : spelling ∈ spellings value)
    (hr : spell? .verify none (before ++ spelling ++ after) = some r) :
    spell? .verify none (before ++ after) = some r ∧ r.help = true
      ∨ ∃ first later,
          r.items = first ++ .choice .expectPcr value :: later
          ∧ spell? .verify none (before ++ after)
            = some ⟨first ++ later, r.help⟩ := by
  rw [List.append_assoc] at hr
  have hleaves : Leaves .verify fun after =>
      spell? .verify none (before ++ after) := leaves_spell? hbefore none
  cases hleaves with
  | mistake h =>
    rw [h] at hr
    cases hr
  | help items h =>
    rw [h] at hr ⊢
    cases hr
    exact Or.inl ⟨rfl, rfl⟩
  | more items awaiting hmore =>
    rw [hmore] at hr
    obtain ⟨r₁, hr₁, rfl⟩ := Option.map_eq_some_iff.1 hr
    obtain ⟨rfl, r', hr', rfl⟩ := spell?_spelling h hr₁
    refine Or.inr ⟨items, r'.items, rfl, ?_⟩
    rw [hmore, hr']
    rfl

end CommandLine

end Attestation
