/-
Rules that go through a row of demands and stop at the first that is not
met. Loading a setup goes through the variables so, and reading an
expectation through the parts of its text. In both the fault that comes
out is of one member of the row, and the point of a proof is that this
member is the first that fails, whatever there would be to say about the
later ones.

`FirstFailing row P x` is that notion, as a split of the row: `x` fails,
and everything before it passes. A position in the row would do as well,
but the split is what the proofs hand on, since a row is gone through
member by member (`FirstFailing.head`, `FirstFailing.cons`), and that
there is only one such member (`FirstFailing.unique`) follows from the
same two cases.

`NamesFirst row P named outcome` is the relation between a row and what
a rule gives: a value if all members pass, and otherwise a fault whose
name is the first that fails. It is built up in the shape of the rule,
one member for each line of a `do` block (`NamesFirst.bind`), so no proof
about a particular rule has to list the members before a failure. What
it is wanted for is read off at the end: when there is a value
(`exists_ok_iff`), and which faults there are (`exists_error_iff`).
-/
import Attestation.Refusal.Basic

namespace Attestation

variable {α : Type} {row : List α} {P : α → Prop} {x y : α}

/-- The member of a row that fails while all before it pass. -/
structure FirstFailing (row : List α) (P : α → Prop) (x : α) : Prop where
  failed : ¬P x
  split : ∃ before later, row = before ++ x :: later ∧ ∀ y ∈ before, P y

namespace FirstFailing

theorem head (h : ¬P x) (row : List α) : FirstFailing (x :: row) P x :=
  ⟨h, [], row, rfl, List.forall_mem_nil _⟩

theorem cons (hy : P y) (h : FirstFailing row P x) :
    FirstFailing (y :: row) P x := by
  obtain ⟨before, later, hrow, hbefore⟩ := h.split
  exact ⟨h.failed, y :: before, later, by rw [hrow, List.cons_append],
    List.forall_mem_cons.2 ⟨hy, hbefore⟩⟩

/-- Either the row begins with it, or it is the first to fail after a
member that passes. -/
theorem cons_cases (h : FirstFailing (y :: row) P x) :
    y = x ∨ P y ∧ FirstFailing row P x := by
  obtain ⟨before, later, hrow, hbefore⟩ := h.split
  cases before with
  | nil =>
    cases hrow
    exact Or.inl rfl
  | cons z before =>
    cases hrow
    obtain ⟨hy, hbefore⟩ := List.forall_mem_cons.1 hbefore
    exact Or.inr ⟨hy, h.failed, before, later, rfl, hbefore⟩

theorem mem (h : FirstFailing row P x) : x ∈ row := by
  obtain ⟨before, later, hrow, -⟩ := h.split
  rw [hrow]
  exact List.mem_append_right before List.mem_cons_self

/-- A row fails first at one member only, by induction on the row. -/
theorem unique (h : FirstFailing row P x) (h' : FirstFailing row P y) :
    x = y := by
  induction row with
  | nil => cases h.mem
  | cons z row ih =>
    rcases h.cons_cases with hx | ⟨hz, hlater⟩
    · rcases h'.cons_cases with hy | ⟨hz, -⟩
      · rw [← hx, hy]
      · rw [hx] at hz
        exact absurd hz h.failed
    · rcases h'.cons_cases with hy | ⟨-, hlater'⟩
      · rw [hy] at hz
        exact absurd hz h'.failed
      · exact ih hlater hlater'

end FirstFailing

variable {ε ε' β γ : Type} {named : ε → α} {outcome : Except ε β}

/-- An outcome is a value if every member of a row passes, and otherwise
a fault that is named after the first that does not. -/
def NamesFirst (row : List α) (P : α → Prop) (named : ε → α) :
    Except ε β → Prop
  | .ok _ => ∀ x ∈ row, P x
  | .error fault => FirstFailing row P (named fault)

namespace NamesFirst

/-- Where nothing is demanded every value will do. -/
theorem pure (value : β) :
    NamesFirst [] P named (Pure.pure value : Except ε β) :=
  List.forall_mem_nil P

/-- A rule for one member, whose only fault is named after it. -/
theorem of_demand {value? : Option β} {fault : ε}
    (hnamed : named fault = x) (h : P x ↔ ∃ value, value? = some value) :
    NamesFirst [x] P named (demand value? fault) := by
  cases value? with
  | some value => exact List.forall_mem_singleton.2 (h.2 ⟨value, rfl⟩)
  | none =>
    show FirstFailing [x] P (named fault)
    rw [hnamed]
    refine .head ?_ []
    rw [h]
    rintro ⟨value, ⟨⟩⟩

/-- A rule for one member, all of whose faults are named after it. -/
theorem of_mapError {inner : Except ε' β} {fault : ε' → ε}
    (hnamed : ∀ reason, named (fault reason) = x)
    (h : P x ↔ ∃ value, inner = .ok value) :
    NamesFirst [x] P named (inner.mapError fault) := by
  cases inner with
  | ok value => exact List.forall_mem_singleton.2 (h.2 ⟨value, rfl⟩)
  | error reason =>
    show FirstFailing [x] P (named (fault reason))
    rw [hnamed reason]
    refine .head ?_ []
    rw [h]
    rintro ⟨value, ⟨⟩⟩

/-- A rule for one member, and then rules for the others. -/
theorem bind {first : Except ε β} {next : β → Except ε γ}
    (hfirst : NamesFirst [x] P named first)
    (hnext : ∀ value, first = .ok value →
      NamesFirst row P named (next value)) :
    NamesFirst (x :: row) P named (first >>= next) := by
  cases first with
  | error fault =>
    rcases FirstFailing.cons_cases hfirst with hx | ⟨-, hnone⟩
    · have hfailed : ¬P (named fault) := FirstFailing.failed hfirst
      show FirstFailing (x :: row) P (named fault)
      rw [hx]
      exact .head hfailed row
    · cases hnone.mem
  | ok value =>
    have hx : P x := List.forall_mem_singleton.1 hfirst
    show NamesFirst (x :: row) P named (next value)
    have hlater := hnext value rfl
    cases hvalue : next value with
    | ok result =>
      rw [hvalue] at hlater
      exact List.forall_mem_cons.2 ⟨hx, hlater⟩
    | error fault =>
      rw [hvalue] at hlater
      exact FirstFailing.cons hx hlater

/-- There is a value exactly if every member passes. -/
theorem exists_ok_iff (h : NamesFirst row P named outcome) :
    (∃ value, outcome = .ok value) ↔ ∀ x ∈ row, P x := by
  cases outcome with
  | ok value => exact iff_of_true ⟨value, rfl⟩ h
  | error fault =>
    have hfirst : FirstFailing row P (named fault) := h
    refine iff_of_false (by rintro ⟨value, ⟨⟩⟩) ?_
    intro hall
    exact hfirst.failed (hall _ hfirst.mem)

/-- There is a fault with a name exactly if that member is the first to
fail. -/
theorem exists_error_iff (h : NamesFirst row P named outcome) :
    (∃ fault, outcome = .error fault ∧ named fault = x)
      ↔ FirstFailing row P x := by
  cases outcome with
  | ok value =>
    have hall : ∀ x ∈ row, P x := h
    refine iff_of_false (by rintro ⟨fault, ⟨⟩, -⟩) ?_
    intro hfirst
    exact hfirst.failed (hall x hfirst.mem)
  | error fault =>
    have hfirst : FirstFailing row P (named fault) := h
    constructor
    · rintro ⟨_, ⟨⟩, hname⟩
      rw [← hname]
      exact hfirst
    · intro hx
      exact ⟨fault, rfl, hfirst.unique hx⟩

end NamesFirst

end Attestation
