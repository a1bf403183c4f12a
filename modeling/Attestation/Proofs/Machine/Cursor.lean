/-
A reader on a machine: the whole byte string and a place in it, which
every read moves on. A `Cursor` never holds the bytes that are left; it
cuts them out when they are asked for, and whether they are there is
checked then. The reader of this library holds them, and cannot be at a
place that does not exist.

`At data limit` relates a cursor over `data` to the reader at the same
place, which is at most `limit`, and each operation has one lemma that
says by how much it moves the limit. This is for bytes of which nothing
is assumed: the sum of a place and a length may be no word, and then the
read has to fail as it does for too few bytes. As long as the limit and
the length together are a word, the two are the same. For the document
as a whole this is enough, since the lengths in it are announced in two
bytes and the reads are few.

In bytes that a two-byte length counts (`Tracks`) no operation can fail,
and no limit is needed. This is the relation that all formats are read
with; each lemma about it is one about `At`, with the length of the
bytes for the limit and room to spare (`Tracks.room`). Bytes that are
taken out are as short as what they were taken from (`Taken`), which is
what a cursor over them needs to be tracked in turn.
-/
import Attestation.Bytes.DerLength
import Attestation.Proofs.Bytes.Passage
import Attestation.Proofs.Machine.Checked

namespace Attestation

namespace Machine

/-- A place in a byte string. -/
structure Cursor where
  data : Bytes
  pos : Nat

namespace Cursor

-- ======================================================== operations

def ofBytes (data : Bytes) : Cursor :=
  ⟨data, 0⟩

def remaining (c : Cursor) : Checked Nat :=
  sub c.data.length c.pos

def rest (c : Cursor) : Checked Bytes :=
  slice c.data c.pos c.data.length

def isEmpty (c : Cursor) : Bool :=
  c.pos == c.data.length

/-- The next `n` bytes. A sum that is no word is a read that fails. -/
def take (c : Cursor) (n : Nat) : Search (Bytes × Cursor) :=
  if c.pos + n < wordSize ∧ c.pos + n ≤ c.data.length then
    pure ((c.data.drop c.pos).take n, ⟨c.data, c.pos + n⟩)
  else
    failure

def fixed (c : Cursor) (n : Nat) : Search (FixedBytes n × Cursor) := do
  let (data, c) ← c.take n
  match FixedBytes.ofList? n data with
  | some value => return (value, c)
  | none => failure

def nat (c : Cursor) (width : Nat) : Search (Nat × Cursor) := do
  let (value, c) ← c.fixed width
  return (value.toNat, c)

def skip (c : Cursor) (n : Nat) : Search Cursor := do
  let (_, c) ← c.take n
  return c

def byte (c : Cursor) : Search (UInt8 × Cursor) :=
  match c.data[c.pos]? with
  | some b => do
    let pos ← add c.pos 1
    return (b, ⟨c.data, pos⟩)
  | none => failure

/-- A number in one byte. -/
def byteNat (c : Cursor) : Search (Nat × Cursor) := do
  let (b, c) ← c.byte
  return (b.toNat, c)

/-- Passes over `word` if the unread bytes begin with it. The end of
`word` is a place even where there are no bytes. -/
def eat (c : Cursor) (word : Bytes) : Search Cursor := do
  let stop ← add c.pos word.length
  if stop ≤ c.data.length
      ∧ (c.data.drop c.pos).take (stop - c.pos) = word then
    let pos ← add c.pos word.length
    return ⟨c.data, pos⟩
  else
    failure

/-- The refusal when bytes end before a value is complete. -/
def missing (c : Cursor) : Checked Refusal := do
  let remaining ← c.remaining
  let length ← add c.pos remaining
  return .trailingOrMissingData c.pos length

/-- A length as DER writes it. -/
def length (c : Cursor) : Search (Nat × Cursor) := do
  let (b, c) ← c.byte
  if b < 0x80 then return (b.toNat, c)
  else if b = 0x81 then c.byteNat
  else if b = 0x82 then c.nat 2
  else failure

/-- A length below 128 in its one-byte form. -/
def shortLength (c : Cursor) : Search (Nat × Cursor) := do
  let (b, c) ← c.byte
  if b < 0x80 then return (b.toNat, c) else failure

-- ========================================================== relation

/-- The cursor is over these bytes, at the reader's place, and no
further than the limit. -/
structure At (data : Bytes) (limit : Nat) (c : Cursor) (r : Reader) :
    Prop where
  data_eq : c.data = data
  position_eq : c.pos = r.position
  rest_eq : data.drop c.pos = r.rest
  pos_le : c.pos ≤ limit
  pos_le_length : c.pos ≤ data.length

/-- The cursor is at the reader's place in fewer bytes than a two-byte
length counts. -/
structure Tracks (data : Bytes) (c : Cursor) (r : Reader) : Prop
    extends At data data.length c r where
  small : data.length < 65536

/-- Bytes were taken out of `data`: they are as few, and related places
follow them. -/
def Taken (data bytes : Bytes) (c : Cursor) (r : Reader) : Prop :=
  bytes.length < 65536 ∧ Tracks data c r

end Cursor

open Cursor

variable {data : Bytes} {limit n : Nat} {c : Cursor} {r : Reader}
  {word : Bytes}

-- ====================================================== any bytes

namespace Cursor.At

theorem ofBytes (data : Bytes) : At data 0 (ofBytes data)
    (.ofBytes data) :=
  ⟨rfl, rfl, rfl, Nat.le_refl 0, Nat.zero_le _⟩

theorem length_eq (h : At data limit c r) :
    data.length = c.pos + r.remaining := by
  rw [Reader.remaining, ← h.rest_eq, List.length_drop,
    Nat.add_sub_cancel' h.pos_le_length]

/-- The end of the bytes is a limit. -/
theorem whole (h : At data limit c r) : At data data.length c r :=
  { h with pos_le := h.pos_le_length }

theorem remaining (h : At data limit c r) :
    c.remaining = .ok r.remaining := by
  rw [Cursor.remaining, h.data_eq, sub_eq h.pos_le_length, h.length_eq,
    Nat.add_sub_cancel_left]

/-- The bytes that are left can be cut out. -/
theorem rest (h : At data limit c r) : c.rest = .ok r.rest := by
  have hlength : r.rest.length = data.length - c.pos := by
    rw [← h.rest_eq, List.length_drop]
  rw [Cursor.rest, h.data_eq, slice_eq h.pos_le_length (Nat.le_refl _),
    h.rest_eq, List.take_of_length_le (Nat.le_of_eq hlength)]

/-- The two are at the end together. -/
theorem isEmpty_eq (h : At data limit c r) : c.isEmpty = r.isEmpty := by
  have hlength := h.length_eq
  rw [Reader.remaining] at hlength
  rw [Cursor.isEmpty, Reader.isEmpty, h.data_eq, hlength]
  cases r.rest with
  | nil => simp
  | cons b rest => simp

/-- A reader that is a word on is reached by moving on by its length. -/
theorem move {r' : Reader} (h : At data limit c r)
    (hpasses : r.Passes word r') :
    At data (limit + word.length) ⟨data, c.pos + word.length⟩ r' where
  data_eq := rfl
  position_eq := by
    rw [h.position_eq, hpasses.position_eq]
  rest_eq := by
    show data.drop (c.pos + word.length) = _
    rw [← List.drop_drop, h.rest_eq, hpasses.rest_eq, List.drop_left]
  pos_le := Nat.add_le_add_right h.pos_le _
  pos_le_length := by
    rw [h.length_eq, Reader.remaining, hpasses.rest_eq, List.length_append]
    show c.pos + word.length ≤ _
    omega

/-- Bytes are taken alike as long as the place behind them is a word. -/
theorem take (h : At data limit c r) (hroom : limit + n < wordSize) :
    Finds (With fun bytes c r => bytes.length = n ∧ At data (limit + n) c r)
      (c.take n) (r.take? n) := by
  have hlength := h.length_eq
  have hle := h.pos_le
  rw [Reader.remaining] at hlength
  rw [Cursor.take, h.data_eq, h.rest_eq]
  by_cases hshort : n ≤ r.rest.length
  · obtain ⟨r', hpasses, -⟩ := Reader.exists_passes
      (List.take_append_drop n r.rest).symm
    have htake := List.length_take_of_le hshort
    have hplain : r.take? n = some (r.rest.take n, r') :=
      Reader.take?_iff_passes.2 ⟨htake, hpasses⟩
    have hmoved := h.move hpasses
    rw [htake] at hmoved
    rw [hplain, if_pos (by omega)]
    exact .some ⟨rfl, htake, hmoved⟩
  · rw [Reader.take?_of_lt (Nat.not_le.1 hshort), if_neg (by omega)]
    exact .none

/-- However many bytes are asked for: more than there are make a sum
that is too large or a place that does not exist. -/
theorem take_any (h : At data limit c r)
    (hsize : 2 * data.length < wordSize) (n : Nat) :
    Finds (With fun bytes c r =>
        bytes.length = n ∧ n ≤ data.length ∧ At data data.length c r)
      (c.take n) (r.take? n) := by
  have hlength := h.length_eq
  rw [Reader.remaining] at hlength
  by_cases hshort : n ≤ r.rest.length
  · refine (h.whole.take (by omega)).mono fun p q htaken => ?_
    obtain ⟨hsame, hcount, hat⟩ := htaken
    exact ⟨hsame, hcount, by omega, hat.whole⟩
  · have hplace : ¬(c.pos + n < wordSize ∧ c.pos + n ≤ c.data.length) := by
      rw [h.data_eq]
      omega
    rw [Reader.take?_of_lt (Nat.not_le.1 hshort), Cursor.take,
      if_neg hplace]
    exact .none

/-- A value of a fixed length is taken alike. -/
theorem fixed (h : At data limit c r) (hroom : limit + n < wordSize) :
    Finds (With fun _ => At data (limit + n)) (c.fixed n) (r.fixed? n) := by
  rw [Reader.fixed?_eq_bind]
  refine (h.take hroom).bind_with fun bytes c r htaken => ?_
  dsimp only
  cases FixedBytes.ofList? n bytes with
  | none => exact .none
  | some value => exact .some ⟨rfl, htaken.2⟩

/-- A byte is read alike. -/
theorem byte (h : At data limit c r) (hroom : limit + 1 < wordSize) :
    Finds (With fun _ => At data (limit + 1)) c.byte r.byte? := by
  have hget : data[c.pos]? = r.rest.head? := by
    rw [← h.rest_eq, List.head?_drop]
  unfold Cursor.byte Reader.byte?
  rw [h.data_eq, hget]
  cases hrest : r.rest with
  | nil => exact .none
  | cons b rest =>
    have hpasses : r.Passes [b] ⟨r.position + 1, rest⟩ := ⟨hrest, rfl⟩
    have hadd : add c.pos 1 = .ok (c.pos + 1) :=
      add_eq (Nat.lt_of_le_of_lt (Nat.add_le_add_right h.pos_le 1) hroom)
    exact Finds.check hadd (.some ⟨rfl, h.move hpasses⟩)

/-- An expected word is passed over alike. -/
theorem eat (h : At data limit c r) (hroom : limit + word.length < wordSize) :
    Finds (At data (limit + word.length)) (c.eat word) (r.pass? word) := by
  have hle := h.pos_le
  have hadd : add c.pos word.length = .ok (c.pos + word.length) :=
    add_eq (Nat.lt_of_le_of_lt (Nat.add_le_add_right hle _) hroom)
  unfold Cursor.eat
  refine Finds.check hadd ?_
  rw [h.data_eq, h.rest_eq, Nat.add_sub_cancel_left]
  by_cases hbegins : word <+: r.rest
  · obtain ⟨more, hmore⟩ := hbegins
    obtain ⟨r', hpasses, -⟩ := Reader.exists_passes hmore.symm
    have hmoved := h.move hpasses
    have htake : r.rest.take word.length = word := by
      rw [← hmore, List.take_left]
    rw [if_pos ⟨hmoved.pos_le_length, htake⟩,
      Reader.pass?_iff_passes.2 hpasses]
    exact Finds.check hadd (.some hmoved)
  · have hother : ¬(c.pos + word.length ≤ data.length
        ∧ r.rest.take word.length = word) := by
      intro hplace
      exact hbegins (List.prefix_iff_eq_take.2 hplace.2.symm)
    have hplain : r.pass? word = none := by
      rw [Reader.pass?, if_neg]
      rw [List.isPrefixOf_iff_prefix]
      exact hbegins
    rw [if_neg hother, hplain]
    exact .none

/-- In few bytes no limit is needed. -/
theorem tracks (h : At data limit c r) (hsmall : data.length < 65536) :
    Tracks data c r :=
  { h with pos_le := h.pos_le_length, small := hsmall }

end Cursor.At

-- ================================================ bytes that are counted

namespace Cursor.Tracks

theorem ofBytes (hsmall : data.length < 65536) :
    Tracks data (ofBytes data) (.ofBytes data) :=
  (At.ofBytes data).tracks hsmall

/-- A length of two bytes and a place in few bytes are a word together.
-/
theorem room (h : Tracks data c r) (hn : n ≤ 65536) :
    data.length + n < wordSize := by
  have hsmall := h.small
  rw [wordSize]
  omega

/-- The refusal for missing data reports the same two numbers. -/
theorem missing (h : Tracks data c r) : c.missing = .ok r.missing := by
  have hroom : c.pos + r.remaining < wordSize := by
    rw [← h.length_eq]
    exact h.room (n := 0) (Nat.zero_le _)
  unfold Cursor.missing
  rw [h.remaining, ok_bind, add_eq hroom, ok_bind, h.position_eq]
  rfl

/-- The bytes between two places are those between the readers. -/
theorem slice_eq_upTo {c' : Cursor} {r' : Reader} (h : Tracks data c r)
    (h' : Tracks data c' r') (hle : r.position ≤ r'.position) :
    slice data c.pos c'.pos = .ok (r.upTo r') := by
  have hplaces : c.pos ≤ c'.pos := by
    rw [h.position_eq, h'.position_eq]
    exact hle
  rw [slice_eq hplaces h'.pos_le_length, h.rest_eq, h.position_eq,
    h'.position_eq]
  rfl

theorem take (h : Tracks data c r) (n : Nat) :
    Finds (With (Taken data)) (c.take n) (r.take? n) := by
  have hsmall := h.small
  have hsize : 2 * data.length < wordSize := by
    rw [wordSize]
    omega
  refine (h.take_any hsize n).mono fun p q htaken => ?_
  obtain ⟨hsame, hcount, hle, hat⟩ := htaken
  exact ⟨hsame, by omega, hat.tracks hsmall⟩

theorem eat (h : Tracks data c r) (hword : word.length ≤ 65536) :
    Finds (Tracks data) (c.eat word) (r.pass? word) :=
  (h.toAt.eat (h.room hword)).mono fun _ _ hat => hat.tracks h.small

theorem fixed (h : Tracks data c r) (hn : n ≤ 65536) :
    Finds (With fun _ => Tracks data) (c.fixed n) (r.fixed? n) :=
  (h.toAt.fixed (h.room hn)).mono fun _ _ hfixed =>
    ⟨hfixed.1, hfixed.2.tracks h.small⟩

theorem skip (h : Tracks data c r) (n : Nat) :
    Finds (Tracks data) (c.skip n) (r.skip? n) :=
  (h.take n).map fun _ _ htaken => htaken.2.2

theorem nat (h : Tracks data c r) (hn : n ≤ 65536) :
    Finds (With fun _ => Tracks data) (c.nat n) (r.nat? n) := by
  rw [Reader.nat?_eq_map]
  refine (h.fixed hn).map fun p q hfixed => ?_
  obtain ⟨value, c, r, rfl, rfl, hplace⟩ := hfixed.cases
  exact ⟨rfl, hplace⟩

theorem byte (h : Tracks data c r) :
    Finds (With fun _ => Tracks data) c.byte r.byte? :=
  (h.toAt.byte (h.room (by omega))).mono fun _ _ hbyte =>
    ⟨hbyte.1, hbyte.2.tracks h.small⟩

/-- A byte is a number of one digit. -/
theorem byteNat (h : Tracks data c r) :
    Finds (With fun _ => Tracks data) c.byteNat (r.nat? 1) := by
  have hplain : r.nat? 1
      = r.byte? >>= fun p => some (p.1.toNat, p.2) := by
    rw [Reader.nat?, Reader.byte?]
    cases hrest : r.rest with
    | nil =>
      rw [Reader.take?_of_lt (by rw [hrest]; exact Nat.zero_lt_one)]
      rfl
    | cons b rest =>
      have hlong : 1 ≤ r.rest.length := by
        rw [hrest]
        exact Nat.succ_pos _
      rw [Reader.take?_of_le hlong, hrest]
      show some (256 * 0 + b.toNat, _) = some (b.toNat, _)
      rw [Nat.mul_zero, Nat.zero_add]
      rfl
  rw [hplain]
  exact h.byte.bind_with fun _ _ _ hplace => .some ⟨rfl, hplace⟩

/-- A DER length is read alike, in all of its forms. -/
theorem length (h : Tracks data c r) :
    Finds (With fun _ => Tracks data) c.length r.length? := by
  have hplain : r.length? = r.byte? >>= fun p =>
      if p.1 < 0x80 then some (p.1.toNat, p.2)
      else if p.1 = 0x81 then p.2.nat? 1
      else if p.1 = 0x82 then p.2.nat? 2
      else none := by
    rw [Reader.length?]
    cases r.byte? <;> rfl
  rw [hplain]
  refine h.byte.bind_with fun b c r h => ?_
  dsimp only
  split
  · exact .some ⟨rfl, h⟩
  split
  · exact h.byteNat
  split
  · exact h.nat (by omega)
  · exact .none

/-- A length in one byte is read alike. -/
theorem shortLength (h : Tracks data c r) :
    Finds (With fun _ => Tracks data) c.shortLength r.shortLength? := by
  have hplain : r.shortLength? = r.byte? >>= fun p =>
      if p.1 < 0x80 then some (p.1.toNat, p.2) else none := by
    rw [Reader.shortLength?]
    cases r.byte? <;> rfl
  rw [hplain]
  refine h.byte.bind_with fun b c r h => ?_
  dsimp only
  split
  · exact .some ⟨rfl, h⟩
  · exact .none

end Cursor.Tracks

end Machine

end Attestation
