/-
Passages: what a reader passes over. `r.Passes word r'` says that `r'`
is `r` with `word` read, and nothing about how it was read.

Every operation of a reader gets one equivalence here, from "it succeeds
and leaves `r'`" to "the reader passes over such a word to `r'`". A
format is then proved without positions: a row of reads is one passage
over the words put together, and a passage over words put together can
be cut between them (`passes_append_iff`). This is why there are
equivalences throughout and no implications one way. From left to right
they say what a successful reading has read, from right to left that
what was written is read, and a proof about a format uses each of them
in both directions, in the same order of the fields.

A reader is a position and the bytes that are left, so it is settled by
the word and the reader before it (`Passes.unique`); from the start of a
byte string the word is all that was read (`Passes.eq_append`), and its
length is the position (`Passes.position_eq_length`).

Two variations follow. The `demand_` forms are the same equivalences for
reads whose failure has a reason, since the rules of every format stop
with one. And `shift` moves a reader to another place without changing
what is left: every operation does the same there, which is used where a
part of a format is read by a function that starts at its own zero.

What is not here is what happens to bytes that end too early. That is
the opposite case, and has the same shape (`EndsIn`).
-/
import Attestation.Proofs.Bytes.Digits
import Attestation.Refusal.Basic

namespace Attestation

namespace Reader

/-- The reader `r'` is what `r` becomes by reading `word`. -/
structure Passes (r : Reader) (word : Bytes) (r' : Reader) : Prop where
  rest_eq : r.rest = word ++ r'.rest
  position_eq : r'.position = r.position + word.length

variable {r r' r'' : Reader} {word more data : Bytes}

-- ======================================================== composing

theorem Passes.refl (r : Reader) : r.Passes [] r :=
  ⟨rfl, rfl⟩

/-- Passing over two words is passing over them put together. -/
theorem Passes.trans (h : r.Passes word r') (h' : r'.Passes more r'') :
    r.Passes (word ++ more) r'' where
  rest_eq := by
    rw [h.rest_eq, h'.rest_eq, List.append_assoc]
  position_eq := by
    rw [h'.position_eq, h.position_eq, List.length_append, Nat.add_assoc]

/-- A reader passes over whatever its unread bytes begin with. -/
theorem exists_passes (h : r.rest = word ++ more) :
    ∃ r', r.Passes word r' ∧ r'.rest = more :=
  ⟨⟨r.position + word.length, more⟩, ⟨h, rfl⟩, rfl⟩

/-- A passage over two words stops between them. -/
theorem passes_append_iff :
    r.Passes (word ++ more) r''
      ↔ ∃ r', r.Passes word r' ∧ r'.Passes more r'' := by
  constructor
  · intro h
    have hrest : r.rest = word ++ (more ++ r''.rest) := by
      rw [h.rest_eq, List.append_assoc]
    refine ⟨⟨r.position + word.length, more ++ r''.rest⟩, ⟨hrest, rfl⟩,
      rfl, ?_⟩
    rw [h.position_eq, List.length_append, Nat.add_assoc]
  · intro h
    obtain ⟨r', hword, hmore⟩ := h
    exact hword.trans hmore

/-- The first byte of a word can be passed over on its own. -/
theorem passes_cons_iff {b : UInt8} :
    r.Passes (b :: word) r''
      ↔ ∃ r', r.Passes [b] r' ∧ r'.Passes word r'' := by
  rw [← List.singleton_append]
  exact passes_append_iff

/-- Reading a word leaves one reader. -/
theorem Passes.unique (h : r.Passes word r') (h' : r.Passes word r'') :
    r' = r'' := by
  have hrest := h.rest_eq.symm.trans h'.rest_eq
  have hposition := h.position_eq.trans h'.position_eq.symm
  cases r'
  cases r''
  simp_all

-- ================================================== from the start

/-- What the first reader of a byte string passes over, and what is
left, make up the byte string. -/
theorem Passes.eq_append (h : (ofBytes data).Passes word r) :
    data = word ++ r.rest :=
  h.rest_eq

/-- A byte string that begins with a word is passed over from its start,
and the rest is left. -/
theorem exists_passes_ofBytes (h : data = word ++ more) :
    ∃ r, (ofBytes data).Passes word r ∧ r.rest = more :=
  exists_passes h

/-- From the start the position is the length of what was read. -/
theorem Passes.position_eq_length (h : (ofBytes data).Passes word r) :
    r.position = word.length := by
  rw [h.position_eq]
  exact Nat.zero_add _

theorem isEmpty_iff : r.isEmpty = true ↔ r.rest = [] :=
  List.isEmpty_iff

/-- The bytes between the two ends of a passage are the word. -/
theorem Passes.upTo_eq (h : r.Passes word r') : r.upTo r' = word := by
  unfold upTo
  rw [h.rest_eq, h.position_eq, Nat.add_sub_cancel_left, List.take_left]

-- ============================================== the operations

/-- Taking a number of bytes is passing over that many, whatever they
are. -/
theorem take?_iff_passes {n : Nat} :
    r.take? n = some (data, r')
      ↔ data.length = n ∧ r.Passes data r' := by
  rw [take?_eq_some_iff]
  constructor
  · intro h
    obtain ⟨hrest, hlen, hposition⟩ := h
    exact ⟨hlen, hrest, by rw [hposition, hlen]⟩
  · intro h
    obtain ⟨hlen, h⟩ := h
    exact ⟨h.rest_eq, hlen, by rw [h.position_eq, hlen]⟩

/-- As long as there are enough, the bytes at the front are taken. -/
theorem take?_of_le {n : Nat} (h : n ≤ r.rest.length) :
    r.take? n
      = some (r.rest.take n, ⟨r.position + n, r.rest.drop n⟩) := by
  refine take?_iff_passes.2 ⟨List.length_take_of_le h, ?_, ?_⟩
  · exact (List.take_append_drop n r.rest).symm
  · rw [List.length_take_of_le h]

/-- If there are too few, none is. -/
theorem take?_of_lt {n : Nat} (h : r.rest.length < n) :
    r.take? n = none := by
  rw [Option.eq_none_iff_forall_ne_some]
  rintro ⟨taken, r'⟩ htake
  obtain ⟨hlen, hpasses⟩ := take?_iff_passes.1 htake
  rw [hpasses.rest_eq, List.length_append, hlen] at h
  omega

/-- A value of a fixed length is read where its bytes stand. -/
theorem fixed?_iff_passes {n : Nat} {value : FixedBytes n} :
    r.fixed? n = some (value, r') ↔ r.Passes value.toList r' := by
  rw [fixed?_eq_some_iff]
  constructor
  · intro h
    obtain ⟨hrest, hposition⟩ := h
    exact ⟨hrest, by rw [hposition, value.length_toList]⟩
  · intro h
    exact ⟨h.rest_eq, by rw [h.position_eq, value.length_toList]⟩

theorem byte?_iff_passes {b : UInt8} :
    r.byte? = some (b, r') ↔ r.Passes [b] r' := by
  rw [byte?_eq_some_iff]
  exact ⟨fun ⟨hrest, hposition⟩ => ⟨hrest, hposition⟩,
    fun h => ⟨h.rest_eq, h.position_eq⟩⟩

theorem pass?_iff_passes : r.pass? word = some r' ↔ r.Passes word r' := by
  rw [pass?_eq_some_iff]
  exact ⟨fun ⟨hrest, hposition⟩ => ⟨hrest, hposition⟩,
    fun h => ⟨h.rest_eq, h.position_eq⟩⟩

/-- Reading a value of a fixed length is taking its bytes. -/
theorem fixed?_eq_bind (r : Reader) (n : Nat) :
    r.fixed? n = r.take? n >>= fun (data, r') =>
      (FixedBytes.ofList? n data).map fun value => (value, r') := by
  rw [fixed?]
  cases r.take? n with
  | none => rfl
  | some taken =>
    cases hvalue : FixedBytes.ofList? n taken.1 <;> simp [hvalue]

/-- A number is read as a fixed-size value is. -/
theorem nat?_eq_map (r : Reader) (n : Nat) :
    r.nat? n = (r.fixed? n).map fun (value, r') => (value.toNat, r') := by
  rw [nat?, fixed?_eq_bind]
  cases htake : r.take? n with
  | none => rfl
  | some taken =>
    obtain ⟨data, r'⟩ := taken
    have hlength := (take?_iff_passes.1 htake).1
    simp [FixedBytes.ofList?_of_length hlength, FixedBytes.toNat]

/-- A number is read exactly from its spelling in the width. -/
theorem nat?_iff_passes {width n : Nat} :
    r.nat? width = some (n, r')
      ↔ n < 256 ^ width ∧ r.Passes (Bytes.ofNat width n) r' := by
  unfold nat?
  rw [Option.map_eq_some_iff]
  constructor
  · intro h
    obtain ⟨⟨data, r₁⟩, ht, he⟩ := h
    obtain ⟨hlen, h⟩ := take?_iff_passes.1 ht
    cases he
    subst hlen
    refine ⟨Bytes.bigEndian_lt data, ?_⟩
    rw [Bytes.ofNat_bigEndian]
    exact h
  · intro h
    obtain ⟨hn, h⟩ := h
    refine ⟨(Bytes.ofNat width n, r'), ?_, ?_⟩
    · exact take?_iff_passes.2 ⟨Bytes.length_ofNat width n, h⟩
    · simp only [Bytes.bigEndian_ofNat hn]

/-- Skipping is passing over as many bytes, whatever they are. -/
theorem skip?_iff_passes {n : Nat} :
    r.skip? n = some r'
      ↔ ∃ data : Bytes, data.length = n ∧ r.Passes data r' := by
  unfold skip?
  rw [Option.map_eq_some_iff]
  constructor
  · intro h
    obtain ⟨⟨data, r₁⟩, ht, he⟩ := h
    subst he
    exact ⟨data, take?_iff_passes.1 ht⟩
  · intro h
    obtain ⟨data, h⟩ := h
    exact ⟨(data, r'), take?_iff_passes.2 h, rfl⟩

-- =============================================== from any place

/-- A reader of the same unread bytes, `count` bytes further on. -/
def shift (r : Reader) (count : Nat) : Reader :=
  ⟨r.position + count, r.rest⟩

/-- Every reader is a first reader, shifted. -/
theorem eq_shift_ofBytes (r : Reader) :
    r = (ofBytes r.rest).shift r.position := by
  simp [shift, ofBytes]

/-- At another place the same bytes are taken, and what is left is
shifted alike; the three lemmas after this one say it of the other
reads. -/
theorem take?_shift (r : Reader) (count n : Nat) :
    (r.shift count).take? n
      = (r.take? n).map fun (data, r') => (data, r'.shift count) := by
  unfold take? shift
  dsimp only
  split
  · simp only [Option.map_some, Nat.add_right_comm]
  · rfl

theorem byte?_shift (r : Reader) (count : Nat) :
    (r.shift count).byte?
      = r.byte?.map fun (b, r') => (b, r'.shift count) := by
  obtain ⟨position, rest⟩ := r
  cases rest with
  | nil => rfl
  | cons b rest => simp [byte?, shift, Nat.add_right_comm]

theorem nat?_shift (r : Reader) (count width : Nat) :
    (r.shift count).nat? width
      = (r.nat? width).map fun (n, r') => (n, r'.shift count) := by
  unfold nat?
  rw [take?_shift, Option.map_map, Option.map_map]
  rfl

theorem pass?_shift (r : Reader) (count : Nat) (word : Bytes) :
    (r.shift count).pass? word = (r.pass? word).map (·.shift count) := by
  unfold pass? shift
  dsimp only
  split
  · simp only [Option.map_some, Nat.add_right_comm]
  · rfl

-- ================================================= with a reason

variable {ε : Type} {reason : ε}

/-- A reason does not depend on what is made of the value. -/
theorem demand_map {α β : Type} (value? : Option α) (f : α → β) :
    demand (value?.map f) reason = (demand value? reason).map f := by
  cases value? <;> rfl

theorem demand_take?_iff {n : Nat} :
    demand (r.take? n) reason = .ok (data, r')
      ↔ data.length = n ∧ r.Passes data r' :=
  demand_eq_ok_iff.trans take?_iff_passes

theorem demand_fixed?_iff {n : Nat} {value : FixedBytes n} :
    demand (r.fixed? n) reason = .ok (value, r')
      ↔ r.Passes value.toList r' :=
  demand_eq_ok_iff.trans fixed?_iff_passes

theorem demand_byte?_iff {b : UInt8} :
    demand r.byte? reason = .ok (b, r') ↔ r.Passes [b] r' :=
  demand_eq_ok_iff.trans byte?_iff_passes

theorem demand_pass?_iff :
    demand (r.pass? word) reason = .ok r' ↔ r.Passes word r' :=
  demand_eq_ok_iff.trans pass?_iff_passes

theorem demand_nat?_iff {width n : Nat} :
    demand (r.nat? width) reason = .ok (n, r')
      ↔ n < 256 ^ width ∧ r.Passes (Bytes.ofNat width n) r' :=
  demand_eq_ok_iff.trans nat?_iff_passes

theorem demand_skip?_iff {n : Nat} :
    demand (r.skip? n) reason = .ok r'
      ↔ ∃ data : Bytes, data.length = n ∧ r.Passes data r' :=
  demand_eq_ok_iff.trans skip?_iff_passes

end Reader

end Attestation
