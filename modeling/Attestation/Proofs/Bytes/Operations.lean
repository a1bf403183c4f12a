/-
Runs of operations on a reader, as many as there are and in any order.
Elsewhere a format fixes which operations follow one another, and what
is proved is about the format. Here nothing fixes them: whatever a
caller does, the reader keeps its place.

`Effect` says what one operation does where some bytes are unread: how
it answers, and the word that it reads. To be refused is to read
nothing, and so is to ask, and an operation is refused only if the
unread bytes do not allow it. Every operation has such an effect and
moves the reader on by the word (`exists_effect`). The effect mentions
neither the reader's position nor how it computes its answers, so it is
a specification that a reader written in another way would have to meet
as well.

`KeepsPlace` puts steps of that kind in a row, with what was read before
each. At every place that is the beginning of the byte string, as long
as the position says, and the rest is what is unread. The run lemma
(`keepsPlace_performAll`) goes by induction on the operations, with what
was read so far as the part of the state that grows; the step is
`exists_effect` and nothing else.

Which operations are refused where is settled first, one lemma for each
(`byte?_eq_none_iff` and its siblings), because a refusal must be shown
to be justified and a success to be exact.
-/
import Attestation.Bytes.Script
import Attestation.Proofs.Bytes.Passage

namespace Attestation

namespace Reader

variable {data before word : Bytes} {r r' : Reader} {n : Nat}
  {op : Operation} {answer : Answer}

-- ======================================================= one operation

/-- The unread bytes allow an operation. -/
def Operation.Possible : Operation → Bytes → Prop
  | .peek, unread => unread ≠ []
  | .byte, unread => unread ≠ []
  | .number width, unread => width ≤ unread.length
  | .take count, unread => count ≤ unread.length
  | .fixed size, unread => size ≤ unread.length
  | .skip count, unread => count ≤ unread.length
  | .pass word, unread => word <+: unread
  | .rest, _ => True

/-- How an operation answers where some bytes are unread, and the word
that it reads of them. -/
inductive Effect (unread : Bytes) : Operation → Answer → Bytes → Prop where
  | refused {op : Operation} (h : ¬op.Possible unread) :
    Effect unread op .refused []
  | peek {b : UInt8} (h : [b] <+: unread) :
    Effect unread .peek (.number b.toNat) []
  | byte {b : UInt8} (h : [b] <+: unread) :
    Effect unread .byte (.number b.toNat) [b]
  /-- The word is the number's spelling, most significant byte first. -/
  | number {width n : Nat} (hn : n < 256 ^ width)
    (h : Bytes.ofNat width n <+: unread) :
    Effect unread (.number width) (.number n) (Bytes.ofNat width n)
  | take {word : Bytes} (h : word <+: unread) :
    Effect unread (.take word.length) (.bytes word) word
  | fixed {word : Bytes} (h : word <+: unread) :
    Effect unread (.fixed word.length) (.bytes word) word
  | skip {word : Bytes} (h : word <+: unread) :
    Effect unread (.skip word.length) .passed word
  | pass {word : Bytes} (h : word <+: unread) :
    Effect unread (.pass word) .passed word
  | rest : Effect unread .rest (.bytes unread) []

/-- The answer of an operation and the reader after it, if it can be
done. -/
def attempt? (r : Reader) : Operation → Option (Answer × Reader)
  | .peek => r.peek?.map fun b => (.number b.toNat, r)
  | .byte => r.byte?.map fun (b, r') => (.number b.toNat, r')
  | .number width => (r.nat? width).map fun (n, r') => (.number n, r')
  | .take count => (r.take? count).map fun (word, r') => (.bytes word, r')
  | .fixed size =>
    (r.fixed? size).map fun (value, r') => (.bytes value.toList, r')
  | .skip count => (r.skip? count).map fun r' => (.passed, r')
  | .pass word => (r.pass? word).map fun r' => (.passed, r')
  | .rest => some (.bytes r.rest, r)

/-- An operation that cannot be done leaves the reader. -/
theorem perform_eq (r : Reader) (op : Operation) :
    r.perform op = (r.attempt? op).getD (.refused, r) := by
  cases op with
  | peek => cases h : r.peek? <;> simp [perform, attempt?, h]
  | byte => cases h : r.byte? <;> simp [perform, attempt?, h]
  | number width => cases h : r.nat? width <;> simp [perform, attempt?, h]
  | take count => cases h : r.take? count <;> simp [perform, attempt?, h]
  | fixed size => cases h : r.fixed? size <;> simp [perform, attempt?, h]
  | skip count => cases h : r.skip? count <;> simp [perform, attempt?, h]
  | pass word => cases h : r.pass? word <;> simp [perform, attempt?, h]
  | rest => rfl

-- ====================================================== when it fails

/-- A word that stands at the front can be passed over. -/
theorem exists_passes_of_prefix (h : word <+: r.rest) :
    ∃ r', r.Passes word r' := by
  obtain ⟨more, hmore⟩ := h
  obtain ⟨r', hpasses, -⟩ := exists_passes hmore.symm
  exact ⟨r', hpasses⟩

/-- There is no byte at the end only. -/
theorem byte?_eq_none_iff : r.byte? = none ↔ r.rest = [] := by
  cases hrest : r.rest <;> simp [byte?, hrest]

/-- A number of bytes cannot be taken only if fewer are left. -/
theorem take?_eq_none_iff : r.take? n = none ↔ ¬n ≤ r.rest.length := by
  refine ⟨fun h hle => ?_, fun h => take?_of_lt (Nat.not_le.1 h)⟩
  rw [take?_of_le hle] at h
  cases h

/-- A value of a fixed length cannot be taken only if fewer bytes are
left, as it is made of any bytes. -/
theorem fixed?_eq_none_iff : r.fixed? n = none ↔ ¬n ≤ r.rest.length := by
  constructor
  · intro h hle
    obtain ⟨r', hpasses⟩ :=
      exists_passes_of_prefix (List.take_prefix n r.rest)
    have hvalue : r.fixed? n
        = some (⟨r.rest.take n, List.length_take_of_le hle⟩, r') :=
      fixed?_iff_passes.2 hpasses
    rw [h] at hvalue
    cases hvalue
  · intro h
    rw [fixed?, take?_eq_none_iff.2 h]

/-- A given word cannot be passed over only if another one stands there.
-/
theorem pass?_eq_none_iff : r.pass? word = none ↔ ¬word <+: r.rest := by
  rw [pass?, ← List.isPrefixOf_iff_prefix]
  simp

/-- An operation fails only where the unread bytes do not allow it. -/
theorem attempt?_eq_none_iff :
    r.attempt? op = none ↔ ¬op.Possible r.rest := by
  cases op with
  | peek => simp [attempt?, peek?, Operation.Possible]
  | byte =>
    simp [attempt?, byte?_eq_none_iff, Operation.Possible]
  | number width =>
    simp [attempt?, nat?, take?_eq_none_iff, Operation.Possible]
  | take count => simp [attempt?, take?_eq_none_iff, Operation.Possible]
  | fixed size => simp [attempt?, fixed?_eq_none_iff, Operation.Possible]
  | skip count =>
    simp [attempt?, skip?, take?_eq_none_iff, Operation.Possible]
  | pass word => simp [attempt?, pass?_eq_none_iff, Operation.Possible]
  | rest => simp [attempt?, Operation.Possible]

-- ==================================================== when it succeeds

/-- What is passed over stood at the front. -/
theorem Passes.isPrefix (h : r.Passes word r') : word <+: r.rest :=
  ⟨r'.rest, h.rest_eq.symm⟩

/-- An operation that succeeds answers with what stands at the front,
and passes over exactly that. -/
theorem exists_effect_of_attempt? (h : r.attempt? op = some (answer, r')) :
    ∃ word, Effect r.rest op answer word ∧ r.Passes word r' := by
  cases op with
  | peek =>
    obtain ⟨b, hpeek, hnext⟩ := Option.map_eq_some_iff.1 h
    cases hnext
    obtain ⟨rest, hrest⟩ := List.head?_eq_some_iff.1 hpeek
    exact ⟨[], .peek ⟨rest, hrest.symm⟩, .refl r⟩
  | byte =>
    obtain ⟨⟨b, _⟩, hbyte, hnext⟩ := Option.map_eq_some_iff.1 h
    cases hnext
    have hpasses := byte?_iff_passes.1 hbyte
    exact ⟨[b], .byte hpasses.isPrefix, hpasses⟩
  | number width =>
    obtain ⟨⟨n, _⟩, hnat, hnext⟩ := Option.map_eq_some_iff.1 h
    cases hnext
    obtain ⟨hn, hpasses⟩ := nat?_iff_passes.1 hnat
    exact ⟨_, .number hn hpasses.isPrefix, hpasses⟩
  | take count =>
    obtain ⟨⟨word, _⟩, htake, hnext⟩ := Option.map_eq_some_iff.1 h
    cases hnext
    obtain ⟨rfl, hpasses⟩ := take?_iff_passes.1 htake
    exact ⟨word, .take hpasses.isPrefix, hpasses⟩
  | fixed size =>
    obtain ⟨⟨⟨word, rfl⟩, _⟩, hfixed, hnext⟩ := Option.map_eq_some_iff.1 h
    cases hnext
    have hpasses := fixed?_iff_passes.1 hfixed
    exact ⟨word, .fixed hpasses.isPrefix, hpasses⟩
  | skip count =>
    obtain ⟨_, hskip, hnext⟩ := Option.map_eq_some_iff.1 h
    cases hnext
    obtain ⟨word, rfl, hpasses⟩ := skip?_iff_passes.1 hskip
    exact ⟨word, .skip hpasses.isPrefix, hpasses⟩
  | pass word =>
    obtain ⟨_, hpass, hnext⟩ := Option.map_eq_some_iff.1 h
    cases hnext
    have hpasses := pass?_iff_passes.1 hpass
    exact ⟨word, .pass hpasses.isPrefix, hpasses⟩
  | rest =>
    cases h
    exact ⟨[], .rest, .refl r⟩

/-- Every operation, refused or not, answers as specified and moves the
reader on by the word that it read. -/
theorem exists_effect (r : Reader) (op : Operation) :
    ∃ word, Effect r.rest op (r.perform op).1 word
      ∧ r.Passes word (r.perform op).2 := by
  rw [perform_eq]
  cases h : r.attempt? op with
  | none => exact ⟨[], .refused (attempt?_eq_none_iff.1 h), .refl r⟩
  | some next => exact exists_effect_of_attempt? h

-- ============================================================== places

/-- The reader stands at a place in `data`. -/
structure Stands (data : Bytes) (r : Reader) : Prop where
  position_le : r.position ≤ data.length
  position_add_remaining : r.position + r.remaining = data.length
  isEmpty_iff : r.isEmpty = true ↔ r.remaining = 0
  rest_eq : r.rest = data.drop r.position

/-- Behind the beginning that was read a reader stands at a place. -/
theorem Passes.stands (h : (ofBytes data).Passes before r) :
    Stands data r := by
  have hposition := h.position_eq_length
  have hlength : data.length = before.length + r.rest.length := by
    rw [h.eq_append, List.length_append]
  refine ⟨?_, ?_, ?_, ?_⟩
  · omega
  · rw [remaining, hposition, hlength]
  · rw [isEmpty_iff, remaining, List.length_eq_zero_iff]
  · rw [hposition, h.eq_append, List.drop_left]

/-- What was read is the beginning of the bytes up to the position. -/
theorem Passes.eq_take (h : (ofBytes data).Passes before r) :
    before = data.take r.position := by
  rw [h.position_eq_length, h.eq_append, List.take_left]

/-- A reader that reads nothing stays. -/
theorem Passes.eq_of_nil (h : r.Passes [] r') : r' = r :=
  h.unique (.refl r)

-- ================================================================ runs

/-- A run of operations on `data`, from the reader behind `before` on.
Each operation has its effect, each place is one in `data`, and what was
read so far is the beginning of `data` up to there. -/
inductive KeepsPlace (data : Bytes) :
    Bytes → Reader → List Operation → List (Answer × Reader) → Prop where
  | nil {before : Bytes} {r : Reader} : KeepsPlace data before r [] []
  | cons {before word : Bytes} {r r' : Reader} {op : Operation}
    {answer : Answer} {ops : List Operation}
    {steps : List (Answer × Reader)}
    (effect : Effect r.rest op answer word)
    (position_eq : r'.position = r.position + word.length)
    (still : word = [] → r' = r)
    (stands : Stands data r')
    (read_eq : before ++ word = data.take r'.position)
    (later : KeepsPlace data (before ++ word) r' ops steps) :
    KeepsPlace data before r (op :: ops) ((answer, r') :: steps)

/-- By induction on the operations. What is kept is that the first
reader of the byte string passes over what was read. -/
theorem keepsPlace_performAll (h : (ofBytes data).Passes before r)
    (ops : List Operation) :
    KeepsPlace data before r ops (r.performAll ops) := by
  induction ops generalizing before r with
  | nil => exact .nil
  | cons op ops ih =>
    obtain ⟨word, heffect, hpasses⟩ := exists_effect r op
    have hread := h.trans hpasses
    refine .cons heffect hpasses.position_eq ?_ hread.stands hread.eq_take
      (ih hread)
    rintro rfl
    exact hpasses.eq_of_nil

end Reader

end Attestation
