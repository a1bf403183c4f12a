/-
Runs of operations on a machine. Here an operation changes the cursor as
it goes: fixed-size values are copied only after their bytes were passed
over (`takeCopied`), so a copy that fails would lose them, and every sum
is checked where it is made.

Nothing of this shows. On bytes that a machine can hold (`Storable`)
each operation finds what a reader finds, whatever length it asks for
(`attempt_finds`), so a run has no fault, gives the answers of a reader,
and every place looks the same (`performAll_eq`). With what is known of
a reader's runs that is the whole account of a cursor
(`run_keeps_place`).

Any length may be asked for here, and this is what the lemmas about
formats do not cover: there a length is at most what two bytes can
announce. The sum of the place and a length may be no word now, and the
operation has to be refused, and not to fault and not to wrap around
into the bytes that are there. That it is refused agrees with the
reader, for which so many bytes are never left in storable ones.

Two cursors or readers are compared by what can be seen of them
(`Sight`): the place, how many bytes are left, whether that is none, and
which. So the statement makes no use of how either of them is
represented.
-/
import Attestation.Proofs.Bytes.Operations
import Attestation.Proofs.Machine.Cursor

namespace Attestation

/-- What a place in a byte string looks like. -/
structure Sight where
  position : Nat
  remaining : Nat
  isEmpty : Bool
  rest : Bytes
deriving DecidableEq

def Reader.sight (r : Reader) : Sight :=
  ⟨r.position, r.remaining, r.isEmpty, r.rest⟩

namespace Machine

open Reader

/-- A machine can hold the bytes: a signed word counts them. -/
def Storable (data : Bytes) : Prop :=
  data.length < 2 ^ 63

variable {data : Bytes}

/-- The length of storable bytes and half a word are a word. -/
theorem Storable.room {n : Nat} (h : Storable data) (hn : n < 2 ^ 63) :
    data.length + n < wordSize := by
  have hlength : data.length < 2 ^ 63 := h
  rw [wordSize]
  omega

theorem Storable.double (h : Storable data) :
    2 * data.length < wordSize := by
  rw [Nat.two_mul]
  exact h.room h

namespace Cursor

-- ======================================================== operations

/-- Passes over `n` bytes, and then copies them. -/
def takeCopied (c : Cursor) (n : Nat) (answer : FixedBytes n → Answer) :
    Search (Answer × Cursor) := do
  let (data, c) ← c.take n
  match FixedBytes.ofList? n data with
  | some value => return (answer value, c)
  | none => return (.refused, c)

/-- The answer of an operation and the cursor after it, if it can be
done. -/
def attempt (c : Cursor) : Operation → Search (Answer × Cursor)
  | .peek =>
    match c.data[c.pos]? with
    | some b => return (.number b.toNat, c)
    | none => failure
  | .byte => do
    let (b, c) ← c.byte
    return (.number b.toNat, c)
  | .number width => c.takeCopied width fun value => .number value.toNat
  | .take count => do
    let (word, c) ← c.take count
    return (.bytes word, c)
  | .fixed size => c.takeCopied size fun value => .bytes value.toList
  | .skip count => do
    let c ← c.skip count
    return (.passed, c)
  | .pass word => do
    let c ← c.eat word
    return (.passed, c)
  | .rest => do
    let rest ← c.rest
    return (.bytes rest, c)

/-- Carries out one operation. -/
def perform (c : Cursor) (op : Operation) : Checked (Answer × Cursor) := do
  match ← (c.attempt op).run with
  | some next => return next
  | none => return (.refused, c)

def sight (c : Cursor) : Checked Sight := do
  let remaining ← c.remaining
  let rest ← c.rest
  return ⟨c.pos, remaining, c.isEmpty, rest⟩

/-- Carries out operations in order, with the answer to each and the
sight of the place after it. -/
def performAll (c : Cursor) :
    List Operation → Checked (List (Answer × Sight))
  | [] => return []
  | op :: ops => do
    let (answer, c) ← c.perform op
    let sight ← c.sight
    let later ← c.performAll ops
    return (answer, sight) :: later

-- ================================================== as a reader does

variable {c : Cursor} {r : Reader} {op : Operation}

/-- The copy never fails, so no bytes are lost. -/
theorem takeCopied_finds {n : Nat} (h : At data data.length c r)
    (hdata : Storable data) (answer : FixedBytes n → Answer) :
    Finds (With fun _ => At data data.length) (c.takeCopied n answer)
      ((r.fixed? n).map fun (value, r') => (answer value, r')) := by
  rw [fixed?_eq_bind, Option.bind_eq_bind, Option.map_bind]
  refine (h.take_any hdata.double n).bind_with fun bytes c r htaken => ?_
  obtain ⟨hlength, -, hplace⟩ := htaken
  dsimp only [Function.comp_apply]
  rw [FixedBytes.ofList?_of_length hlength]
  exact .some ⟨rfl, hplace⟩

/-- By cases on the operation. Only words to compare with have to be
ones that a machine can hold. -/
theorem attempt_finds (h : At data data.length c r)
    (hdata : Storable data)
    (hop : ∀ word, op = .pass word → Storable word) :
    Finds (With fun _ => At data data.length) (c.attempt op)
      (r.attempt? op) := by
  have hsize := hdata.double
  cases op with
  | peek =>
    have hget : c.data[c.pos]? = r.peek? := by
      rw [h.data_eq, peek?, ← h.rest_eq, List.head?_drop]
    rw [attempt, attempt?, hget]
    cases r.peek? with
    | none => exact .none
    | some b => exact .some ⟨rfl, h⟩
  | byte =>
    refine (h.byte (hdata.room (by decide))).map fun p q hbyte => ?_
    obtain ⟨b, c, r, rfl, rfl, hplace⟩ := hbyte.cases
    exact ⟨rfl, hplace.whole⟩
  | number width =>
    rw [attempt?, nat?_eq_map, Option.map_map]
    exact takeCopied_finds h hdata _
  | take count =>
    refine (h.take_any hsize count).map fun p q htaken => ?_
    obtain ⟨word, c, r, rfl, rfl, -, -, hplace⟩ := htaken.cases
    exact ⟨rfl, hplace⟩
  | fixed size => exact takeCopied_finds h hdata _
  | skip count =>
    have hskip := (h.take_any hsize count).map fun p q htaken =>
      htaken.2.2.2
    exact hskip.map fun c r hplace => ⟨rfl, hplace⟩
  | pass word =>
    have hroom := hdata.room (hop word rfl)
    exact (h.eat hroom).map fun c r hplace => ⟨rfl, hplace.whole⟩
  | rest => exact Finds.check h.rest (.some ⟨rfl, h⟩)

/-- The step: an operation is answered alike, and leaves the two at the
same place. -/
theorem exists_perform (h : At data data.length c r)
    (hdata : Storable data)
    (hop : ∀ word, op = .pass word → Storable word) :
    ∃ c', c.perform op = .ok ((r.perform op).1, c')
      ∧ At data data.length c' (r.perform op).2 := by
  rw [perform_eq]
  rcases (attempt_finds h hdata hop).cases with
    ⟨next, next', hfound, hfound', hsame, hplace⟩ | ⟨hnone, hnone'⟩
  · refine ⟨next.2, ?_, ?_⟩
    · rw [Cursor.perform, hfound, hfound', Option.getD_some, ← hsame]
      rfl
    · rw [hfound', Option.getD_some]
      exact hplace
  · refine ⟨c, ?_, ?_⟩
    · rw [Cursor.perform, hnone, hnone', Option.getD_none]
      rfl
    · rw [hnone', Option.getD_none]
      exact h

/-- Cursor and reader look the same. -/
theorem sight_eq (h : At data data.length c r) :
    c.sight = .ok r.sight := by
  rw [Cursor.sight, h.remaining, ok_bind, h.rest, ok_bind, h.isEmpty_eq,
    h.position_eq]
  rfl

/-- By induction on the operations: after each the cursor is where the
reader is. -/
theorem performAll_eq {ops : List Operation} (h : At data data.length c r)
    (hdata : Storable data)
    (hops : ∀ word, .pass word ∈ ops → Storable word) :
    c.performAll ops
      = .ok ((r.performAll ops).map fun (answer, r) => (answer, r.sight)) := by
  induction ops generalizing c r with
  | nil => rfl
  | cons op ops ih =>
    have hop (word : Bytes) (hword : op = .pass word) : Storable word :=
      hops word (hword ▸ List.mem_cons_self)
    have hlater (word : Bytes) (hword : .pass word ∈ ops) : Storable word :=
      hops word (List.mem_cons_of_mem op hword)
    obtain ⟨c', hperform, hplace⟩ := exists_perform h hdata hop
    rw [Cursor.performAll, hperform, ok_bind]
    dsimp only
    rw [sight_eq hplace, ok_bind, ih hplace hlater]
    rfl

/-- A run of operations never loses its place in the bytes. A reader
starts at a place, every operation has its effect and moves the reader
on by what it reads, and what was read so far is the beginning of the
bytes. A machine that can hold the bytes carries the same run out
without a fault, with the same answers and the same sights. -/
theorem run_keeps_place (data : Bytes) (ops : List Operation) :
    Stands data (.ofBytes data)
      ∧ KeepsPlace data [] (.ofBytes data) ops
          ((Reader.ofBytes data).performAll ops)
      ∧ (Storable data → (∀ word, .pass word ∈ ops → Storable word) →
          (Cursor.ofBytes data).performAll ops
            = .ok (((Reader.ofBytes data).performAll ops).map
                fun (answer, r) => (answer, r.sight))) := by
  have hstart : (Reader.ofBytes data).Passes [] (.ofBytes data) := .refl _
  refine ⟨hstart.stands, keepsPlace_performAll hstart ops, fun hdata hops => ?_⟩
  exact performAll_eq (At.ofBytes data).whole hdata hops

/-- Reads two of three bytes, asks in four ways for more than there is
left, one of them longer than any place can be, and reads the last
byte. -/
def overlongScript : List Operation :=
  [.take 2, .number 2, .fixed 4, .skip (2 ^ 64 - 1), .pass [3, 4], .byte,
    .peek]

/-- Operations that ask for far more than there is, with a few between
them that do not. -/
theorem run_keeps_place_overlong :
    Storable [1, 2, 3]
      ∧ (∀ word, .pass word ∈ overlongScript → Storable word)
      ∧ (Cursor.ofBytes [1, 2, 3]).performAll overlongScript
        = .ok [(.bytes [1, 2], ⟨2, 1, false, [3]⟩),
            (.refused, ⟨2, 1, false, [3]⟩), (.refused, ⟨2, 1, false, [3]⟩),
            (.refused, ⟨2, 1, false, [3]⟩), (.refused, ⟨2, 1, false, [3]⟩),
            (.number 3, ⟨3, 0, true, []⟩), (.refused, ⟨3, 0, true, []⟩)] := by
  have hdata : Storable [1, 2, 3] := by
    show 3 < 2 ^ 63
    decide
  have hops (word : Bytes) (h : .pass word ∈ overlongScript) :
      Storable word := by
    have hword : word = [3, 4] := by simpa [overlongScript] using h
    rw [hword]
    show 2 < 2 ^ 63
    decide
  obtain ⟨-, -, hmachine⟩ := run_keeps_place [1, 2, 3] overlongScript
  exact ⟨hdata, hops, (hmachine hdata hops).trans rfl⟩

end Cursor

end Machine

end Attestation
