/-
Computing on machine words. The rules of this library compute with
numbers that have no bound and with lists that are cut wherever they
end. A machine computes with 64-bit words and with places in memory, and
has to stop where a result does not fit or a place does not exist.
`Checked` is such a computation: it comes to a value or to a `Fault`.

The modules next to this one carry out a whole verification in this way,
each operation checked where it is made, and every branch that is there
only in case something goes wrong is a fault too. They are written
beside the rules of the library and not derived from them, operation by
operation as a program has them, so that there is something to be
proved. `Agrees` says of a checked rule that it comes to what a rule of
this library comes to, and to no fault; `Lockstep` says the same where
questions are asked, and `Finds` of searches, which may fail without a
reason.

All three are inductive relations between two computations and the
values that they give, with a relation between the values as a
parameter. It cannot be equality, since one side has a cursor where the
other has a reader. They pass through a sequence of two rules (`bind`),
and `bind_with` is the same for a value with a place behind it, which is
the common case. An operation with no counterpart on the other side is
discharged where it stands (`check`). So there is one lemma for each
function, in the shape of the function, and a fault would show as a goal
that cannot be closed.

At the end `no_fault` and `trace_eq` say what a lockstep is good for: no
path ends in a fault, and every judge is asked the same and gets to the
same outcome.
-/
import Attestation.Proofs.Signature.Path
import Mathlib.Algebra.Group.Nat.Defs
import Mathlib.Data.Option.Basic

namespace Attestation

namespace Machine

-- ============================================================ faults

/-- What may go wrong on a machine. -/
inductive Fault where
  /-- A sum or a product is no word, or a difference is below zero. -/
  | overflow
  /-- An index or a range lies outside of what it is taken from. -/
  | bounds
  /-- Bytes are copied to where there is place for more or fewer. -/
  | length
  /-- A search has not come to its end in as many rounds as there are
  bytes. -/
  | searchGoesOn
  /-- The registers that were read cannot be passed over. -/
  | registersNotPassed
  /-- The bundle that was walked cannot be passed over. -/
  | bundleNotPassed
  /-- There is no place for another optional value. -/
  | noPlaceLeft
  /-- All fields were read, and the registers or the key were not
  among them. -/
  | fieldNotSet
deriving DecidableEq

/-- A computation on a machine. -/
abbrev Checked := Except Fault

/-- The number of different words. -/
def wordSize : Nat := 2 ^ 64

-- ======================================================== operations

def add (a b : Nat) : Checked Nat :=
  if a + b < wordSize then .ok (a + b) else .error .overflow

def sub (a b : Nat) : Checked Nat :=
  if b ≤ a then .ok (a - b) else .error .overflow

def mul (a b : Nat) : Checked Nat :=
  if a * b < wordSize then .ok (a * b) else .error .overflow

/-- The element at an index. -/
def index {α : Type} (xs : List α) (i : Nat) : Checked α :=
  match xs[i]? with
  | some x => .ok x
  | none => .error .bounds

/-- The bytes from one place up to another. -/
def slice (data : Bytes) (start stop : Nat) : Checked Bytes :=
  if start ≤ stop ∧ stop ≤ data.length then
    .ok ((data.drop start).take (stop - start))
  else
    .error .bounds

/-- The bytes, copied to where there is place for `n`. -/
def copy (n : Nat) (data : Bytes) : Checked (FixedBytes n) :=
  match FixedBytes.ofList? n data with
  | some value => .ok value
  | none => .error .length

theorem add_eq {a b : Nat} (h : a + b < wordSize) : add a b = .ok (a + b) :=
  if_pos h

theorem sub_eq {a b : Nat} (h : b ≤ a) : sub a b = .ok (a - b) :=
  if_pos h

theorem mul_eq {a b : Nat} (h : a * b < wordSize) : mul a b = .ok (a * b) :=
  if_pos h

theorem index_eq {α : Type} {xs : List α} {i : Nat} (h : i < xs.length) :
    index xs i = .ok (xs.get ⟨i, h⟩) := by
  rw [index, List.getElem?_eq_getElem h]
  rfl

theorem index_get {n : Nat} (value : FixedBytes n) (i : Fin n) :
    index value.toList i.val = .ok (value.get i) :=
  index_eq (i.cast value.length_eq.symm).isLt

theorem slice_eq {data : Bytes} {start stop : Nat} (h : start ≤ stop)
    (h' : stop ≤ data.length) :
    slice data start stop = .ok ((data.drop start).take (stop - start)) :=
  if_pos ⟨h, h'⟩

theorem copy_eq {n : Nat} (value : FixedBytes n) :
    copy n value.toList = .ok value := by
  rw [copy, FixedBytes.ofList?_toList]

@[simp] theorem ok_bind {ε α β : Type} (a : α) (f : α → Except ε β) :
    (Except.ok a >>= f) = f a :=
  rfl

-- ================================== searches, rules and inquiries

/-- A search on a machine: it comes to a value, to nothing or to a
fault. -/
abbrev Search := OptionT Checked

/-- A rule on a machine: it comes to a value, a refusal or a fault. -/
abbrev Run := ExceptT Fault (Except Refusal)

/-- A rule on a machine that may ask questions. -/
abbrev Consult := ExceptT Fault Inquiry

instance : MonadLift Run Consult where
  monadLift x := ExceptT.mk (Inquiry.ofExcept x.run)

variable {α β γ δ ρ σ : Type}

/-- What is found, or the refusal that its absence means. The reason is
worked out only when it is needed. -/
def want (x : Search α) (reason : Checked Refusal) : Run α := do
  match ← (x.run : Checked (Option α)) with
  | some value => return value
  | none =>
    let reason ← reason
    (Except.error reason : Except Refusal α)

-- ========================================================= agreement

/-- The same value, and with it places that are related. -/
def With (T : α → ρ → σ → Prop) (p : α × ρ) (q : α × σ) : Prop :=
  p.1 = q.1 ∧ T p.1 p.2 q.2

/-- The two values are the same, and the places behind them are related.
-/
theorem With.cases {T : α → ρ → σ → Prop} {p : α × ρ} {q : α × σ}
    (h : With T p q) : ∃ a c r, p = (a, c) ∧ q = (a, r) ∧ T a c r := by
  obtain ⟨a, c⟩ := p
  obtain ⟨b, r⟩ := q
  obtain ⟨hsame, hplace⟩ := h
  cases hsame
  exact ⟨a, c, r, rfl, rfl, hplace⟩

/-- A checked search agrees with a search, up to a relation between the
values: both find nothing, or both find something, without a fault. -/
inductive Finds (R : α → β → Prop) : Search α → Option β → Prop where
  | some {a : α} {b : β} (h : R a b) : Finds R (pure a) (.some b)
  | none : Finds R failure .none

/-- A checked rule comes to what a rule comes to, up to a relation
between the values, and to no fault. -/
inductive Agrees (R : α → β → Prop) : Run α → Except Refusal β → Prop where
  | ok {a : α} {b : β} (h : R a b) : Agrees R (pure a) (.ok b)
  | error (reason : Refusal) :
    Agrees R (ExceptT.mk (.error reason)) (.error reason)

namespace Finds

variable {R : α → β → Prop} {S : γ → δ → Prop} {T : α → ρ → σ → Prop}
  {x : Search α} {y : Option β}

/-- Searches one after another. -/
theorem bind {f : α → Search γ} {g : β → Option δ} (hx : Finds R x y)
    (hf : ∀ a b, R a b → Finds S (f a) (g b)) :
    Finds S (x >>= f) (y >>= g) := by
  cases hx with
  | some h => exact hf _ _ h
  | none => exact .none

theorem bind_with {x : Search (α × ρ)} {y : Option (α × σ)}
    {f : α × ρ → Search γ} {g : α × σ → Option δ} (hx : Finds (With T) x y)
    (hf : ∀ a c r, T a c r → Finds S (f (a, c)) (g (a, r))) :
    Finds S (x >>= f) (y >>= g) := by
  refine hx.bind fun p q h => ?_
  obtain ⟨a, c, r, rfl, rfl, hplace⟩ := h.cases
  exact hf a c r hplace

theorem map {f : α → γ} {g : β → δ} (hx : Finds R x y)
    (hf : ∀ a b, R a b → S (f a) (g b)) :
    Finds S (x >>= fun a => pure (f a)) (y.map g) := by
  cases hx with
  | some h => exact .some (hf _ _ h)
  | none => exact .none

/-- An operation that succeeds is no part of what is found. -/
theorem check {x : Checked α} {a : α} {f : α → Search γ} {z : Option δ}
    (hx : x = .ok a) (h : Finds S (f a) z) :
    Finds S ((liftM x : Search α) >>= f) z := by
  rw [hx]
  exact h

/-- Both searches fail or both succeed. -/
theorem cases (hx : Finds R x y) :
    (∃ a b, x = pure a ∧ y = .some b ∧ R a b)
      ∨ x = failure ∧ y = .none := by
  cases hx with
  | some h => exact Or.inl ⟨_, _, rfl, rfl, h⟩
  | none => exact Or.inr ⟨rfl, rfl⟩

theorem mono {S : α → β → Prop} (hx : Finds R x y)
    (h : ∀ a b, R a b → S a b) : Finds S x y := by
  cases hx with
  | some hr => exact .some (h _ _ hr)
  | none => exact .none

end Finds

namespace Agrees

variable {R : α → β → Prop} {S : γ → δ → Prop} {T : α → ρ → σ → Prop}
  {x : Run α} {y : Except Refusal β}

/-- Rules that agree, one after another. -/
theorem bind {f : α → Run γ} {g : β → Except Refusal δ}
    (hx : Agrees R x y) (hf : ∀ a b, R a b → Agrees S (f a) (g b)) :
    Agrees S (x >>= f) (y >>= g) := by
  cases hx with
  | ok h => exact hf _ _ h
  | error reason => exact .error reason

theorem bind_with {x : Run (α × ρ)} {y : Except Refusal (α × σ)}
    {f : α × ρ → Run γ} {g : α × σ → Except Refusal δ}
    (hx : Agrees (With T) x y)
    (hf : ∀ a c r, T a c r → Agrees S (f (a, c)) (g (a, r))) :
    Agrees S (x >>= f) (y >>= g) := by
  refine hx.bind fun p q h => ?_
  obtain ⟨a, c, r, rfl, rfl, hplace⟩ := h.cases
  exact hf a c r hplace

/-- An operation that succeeds is no part of what the rule comes to. -/
theorem check {x : Checked α} {a : α} {f : α → Run γ}
    {z : Except Refusal δ} (hx : x = .ok a) (h : Agrees S (f a) z) :
    Agrees S ((liftM x : Run α) >>= f) z := by
  rw [hx]
  exact h

/-- A rule that accepts is no part of it either. -/
theorem given {y : Except Refusal α} {a : α} {f : α → Run γ}
    {z : Except Refusal δ} (hy : y = .ok a) (h : Agrees S (f a) z) :
    Agrees S ((liftM y : Run α) >>= f) z := by
  rw [hy]
  exact h

/-- What the rule comes to may be kept in mind. -/
theorem also (hx : Agrees R x y) :
    Agrees (fun a b => R a b ∧ y = .ok b) x y := by
  cases hx with
  | ok h => exact .ok ⟨h, rfl⟩
  | error reason => exact .error reason

/-- A rule that needs no check agrees with itself. -/
theorem plain (y : Except Refusal α) : Agrees Eq (liftM y : Run α) y := by
  cases y with
  | ok a => exact .ok rfl
  | error reason => exact .error reason

theorem plain_bind {y : Except Refusal α} {f : α → Run γ}
    {g : α → Except Refusal δ}
    (hf : ∀ a, y = .ok a → Agrees S (f a) (g a)) :
    Agrees S ((liftM y : Run α) >>= f) (y >>= g) := by
  refine (plain y).also.bind fun a b h => ?_
  obtain ⟨hsame, hb⟩ := h
  cases hsame
  exact hf a hb

/-- A search that fails is refused for the same reason. -/
theorem want {x : Search α} {y : Option β} {reason : Checked Refusal}
    {reason' : Refusal} (hx : Finds R x y) (hreason : reason = .ok reason') :
    Agrees R (want x reason) (demand y reason') := by
  rw [hreason]
  cases hx with
  | some h => exact .ok h
  | none => exact .error reason'

end Agrees

/-- A checked inquiry asks what an inquiry asks, and whatever the
answers are, comes to what it comes to, up to a relation between the
values, and to no fault. -/
inductive Lockstep (R : α → β → Prop) : Consult α → Inquiry β → Prop where
  | done {a : α} {b : β} (h : R a b) : Lockstep R (pure a) (.done b)
  | refused (reason : Refusal) :
    Lockstep R (ExceptT.mk (.refused reason)) (.refused reason)
  | ask (query : Query) {next : Bool → Consult α}
      {next' : Bool → Inquiry β}
      (h : ∀ answer, Lockstep R (next answer) (next' answer)) :
      Lockstep R (ExceptT.mk (.ask query fun answer => (next answer).run))
        (.ask query next')

instance : LawfulMonad Inquiry :=
  LawfulMonad.mk' Inquiry Inquiry.bind_done (fun _ _ => rfl)
    Inquiry.bind_assoc

namespace Lockstep

open Inquiry

variable {R : α → β → Prop} {S : γ → δ → Prop} {T : α → ρ → σ → Prop}
  {x : Consult α} {y : Inquiry β}

/-- Inquiries in lockstep, one after another. -/
theorem bind {f : α → Consult γ} {g : β → Inquiry δ}
    (hx : Lockstep R x y) (hf : ∀ a b, R a b → Lockstep S (f a) (g b)) :
    Lockstep S (x >>= f) (y >>= g) := by
  induction hx with
  | done h => exact hf _ _ h
  | refused reason => exact .refused reason
  | ask query h ih => exact .ask query ih

theorem bind_with {x : Consult (α × ρ)} {y : Inquiry (α × σ)}
    {f : α × ρ → Consult γ} {g : α × σ → Inquiry δ}
    (hx : Lockstep (With T) x y)
    (hf : ∀ a c r, T a c r → Lockstep S (f (a, c)) (g (a, r))) :
    Lockstep S (x >>= f) (y >>= g) := by
  refine hx.bind fun p q h => ?_
  obtain ⟨a, c, r, rfl, rfl, hplace⟩ := h.cases
  exact hf a c r hplace

/-- An operation that succeeds is no part of the inquiry. -/
theorem check {x : Checked α} {a : α} {f : α → Consult γ} {z : Inquiry δ}
    (hx : x = .ok a) (h : Lockstep S (f a) z) :
    Lockstep S ((liftM x : Consult α) >>= f) z := by
  rw [hx]
  exact h

/-- A rule that asks nothing. -/
theorem lift {x : Run α} {y : Except Refusal β} (h : Agrees R x y) :
    Lockstep R (liftM x : Consult α) (liftM y : Inquiry β) := by
  cases h with
  | ok h => exact .done h
  | error reason => exact .refused reason

/-- A rule in two parts, of which the second may be checked along with
an inquiry. -/
theorem seq {x : Run α} {y : Except Refusal β} {f : α → Consult γ}
    {g : β → Except Refusal δ} (hx : Agrees R x y)
    (hf : ∀ a b, R a b → Lockstep S (f a) (liftM (g b) : Inquiry δ)) :
    Lockstep S ((liftM x : Consult α) >>= f) (liftM (y >>= g)) := by
  cases hx with
  | ok h => exact hf _ _ h
  | error reason => exact .refused reason

/-- An inquiry that needs no check agrees with itself. -/
theorem plain (y : Inquiry α) : Lockstep Eq (liftM y : Consult α) y := by
  induction y with
  | done value => exact .done rfl
  | refused reason => exact .refused reason
  | ask query next ih => exact .ask query ih

/-- A rule that needs no check agrees with itself, and goes on with the
same value. -/
theorem rule_bind {y : Except Refusal α} {f : α → Consult γ}
    {g : α → Inquiry δ} (hf : ∀ a, y = .ok a → Lockstep S (f a) (g a)) :
    Lockstep S ((liftM y : Consult α) >>= f)
      ((liftM y : Inquiry α) >>= g) := by
  cases y with
  | ok a => exact hf a rfl
  | error reason => exact .refused reason

/-- A first part of a rule, which another inquiry follows. -/
theorem front {y : Except Refusal β} {f : α → Consult γ}
    {g : β → Except Refusal ρ} {next : ρ → Inquiry δ}
    (hx : Lockstep R x (liftM y : Inquiry β))
    (hf : ∀ a b, R a b →
      Lockstep S (f a) ((liftM (g b) : Inquiry ρ) >>= next)) :
    Lockstep S (x >>= f) ((liftM (y >>= g) : Inquiry ρ) >>= next) := by
  have hplain : (liftM (y >>= g) : Inquiry ρ) >>= next
      = (liftM y : Inquiry β) >>= fun b =>
          (liftM (g b) : Inquiry ρ) >>= next := by
    cases y <;> rfl
  rw [hplain]
  exact hx.bind hf

-- ============================================== what follows from it

/-- No path of the checked inquiry ends in a fault. -/
theorem no_fault {calls : List Call} (h : Lockstep R x y)
    (fault : Fault) : ¬x.run.Ends calls (.ok (.error fault)) := by
  induction h generalizing calls with
  | done h => intro hends; cases hends
  | refused reason => intro hends; cases hends
  | ask query h ih =>
    intro hends
    cases hends with
    | ask _ _ answer hends => exact ih answer hends

/-- The checked inquiry makes the same calls and comes to the same
end. -/
theorem trace_eq {y : Inquiry α} (h : Lockstep Eq x y)
    (answer : Nat → Query → Bool) (count : Nat) :
    x.run.trace answer count
      = ((y.trace answer count).1,
          (y.trace answer count).2.map Except.ok) := by
  induction h generalizing count with
  | done h => rw [h]; rfl
  | refused reason => rfl
  | ask query h ih =>
    show (_, _) = (_, _)
    rw [ih]
    rfl

end Lockstep

end Machine

end Attestation
