/-
A reader over a byte string: what is left to read, and how many bytes
have been read before it. Every operation answers `none` when it cannot
be done in full, and hands out the next reader only when it can, so a
failed read never moves anything. Which refusal a failed read means is
for the caller to say.
-/
import Attestation.Bytes.Fixed

namespace Attestation

/-- A place in a byte string. -/
structure Reader where
  /-- How many bytes were read so far. -/
  position : Nat
  /-- The bytes still unread. -/
  rest : Bytes
deriving DecidableEq

namespace Reader

-- ========================================================= queries

/-- The reader at the start of a byte string. -/
def ofBytes (data : Bytes) : Reader :=
  ⟨0, data⟩

/-- How many bytes are unread. -/
def remaining (r : Reader) : Nat :=
  r.rest.length

def isEmpty (r : Reader) : Bool :=
  r.rest.isEmpty

/-- The next byte, without reading it. -/
def peek? (r : Reader) : Option UInt8 :=
  r.rest.head?

/-- The bytes between a reader and a later one on the same string. -/
def upTo (start stop : Reader) : Bytes :=
  start.rest.take (stop.position - start.position)

-- =========================================================== reads

/-- The next `n` bytes. Only they are looked at, however many more
there are. -/
def take? (r : Reader) (n : Nat) : Option (Bytes × Reader) :=
  let data := r.rest.take n
  if data.length = n then
    some (data, ⟨r.position + n, r.rest.drop n⟩)
  else
    none

/-- The next `n` bytes as a fixed-size value. -/
def fixed? (r : Reader) (n : Nat) : Option (FixedBytes n × Reader) :=
  match r.take? n with
  | none => none
  | some (data, r') =>
    match FixedBytes.ofList? n data with
    | none => none
    | some value => some (value, r')

def byte? (r : Reader) : Option (UInt8 × Reader) :=
  match r.rest with
  | [] => none
  | b :: rest => some (b, ⟨r.position + 1, rest⟩)

/-- The number that the next `width` bytes spell, most significant byte
first. -/
def nat? (r : Reader) (width : Nat) : Option (Nat × Reader) :=
  (r.take? width).map fun (data, r') => (Bytes.bigEndian data, r')

/-- Passes over the next `n` bytes. -/
def skip? (r : Reader) (n : Nat) : Option Reader :=
  (r.take? n).map Prod.snd

/-- Passes over `word` if the unread bytes begin with it. -/
def pass? (r : Reader) (word : Bytes) : Option Reader :=
  if word.isPrefixOf r.rest then
    some ⟨r.position + word.length, r.rest.drop word.length⟩
  else
    none

-- ===================================== what a successful read means

theorem take?_eq_some_iff {r r' : Reader} {n : Nat} {data : Bytes} :
    r.take? n = some (data, r') ↔
      r.rest = data ++ r'.rest ∧ data.length = n
        ∧ r'.position = r.position + n := by
  unfold take?
  constructor
  · intro h
    simp only at h
    split at h
    · rename_i hn
      cases h
      exact ⟨(List.take_append_drop n r.rest).symm, hn, rfl⟩
    · cases h
  · rintro ⟨hrest, hlen, hpos⟩
    subst hlen
    cases r'
    simp_all

theorem fixed?_eq_some_iff {r r' : Reader} {n : Nat}
    {value : FixedBytes n} :
    r.fixed? n = some (value, r') ↔
      r.rest = value.toList ++ r'.rest
        ∧ r'.position = r.position + n := by
  unfold fixed?
  constructor
  · intro h
    split at h
    · cases h
    · rename_i data r₁ ht
      split at h
      · cases h
      · rename_i v hv
        cases h
        have hd := FixedBytes.ofList?_eq_some_iff.1 hv
        have ⟨hrest, _, hpos⟩ := take?_eq_some_iff.1 ht
        exact ⟨hd ▸ hrest, hpos⟩
  · rintro ⟨hrest, hpos⟩
    have ht : r.take? n = some (value.toList, r') :=
      take?_eq_some_iff.2 ⟨hrest, value.length_eq, hpos⟩
    simp [ht]

theorem byte?_eq_some_iff {r r' : Reader} {b : UInt8} :
    r.byte? = some (b, r') ↔
      r.rest = b :: r'.rest ∧ r'.position = r.position + 1 := by
  unfold byte?
  split
  · simp_all
  · rename_i c rest hrest
    constructor
    · intro h
      cases h
      simp [hrest]
    · rintro ⟨h, hpos⟩
      cases r'
      simp_all

theorem pass?_eq_some_iff {r r' : Reader} {word : Bytes} :
    r.pass? word = some r' ↔
      r.rest = word ++ r'.rest
        ∧ r'.position = r.position + word.length := by
  unfold pass?
  constructor
  · intro h
    split at h
    · rename_i hw
      obtain ⟨t, ht⟩ := List.isPrefixOf_iff_prefix.1 hw
      cases h
      simp [← ht]
    · cases h
  · rintro ⟨hrest, hpos⟩
    have hw : word.isPrefixOf r.rest = true :=
      List.isPrefixOf_iff_prefix.2 ⟨r'.rest, hrest.symm⟩
    cases r'
    simp_all

end Reader

end Attestation
