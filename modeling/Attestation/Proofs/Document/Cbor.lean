/-
CBOR, as far as the signed array needs it: byte strings, texts and
arrays of a stated length. Every value starts with a head, which says of
what kind the value is and how long, and a length may be written in any
of five widths that is large enough for it. So a value has several
encodings, and an implementation that writes bytes by hand has to be
compared with all of them.

`Writes` says that bytes are one of the encodings of a value, and
`IsShortest` that they are shorter than every other. `shortest` takes
the least width for every head; that this is the shortest encoding, and
the only one, is `isShortest_iff`.

Uniqueness is what makes the comparison delicate: two encodings of equal
length have to be the same. `Undercuts best data` says that `best` is
`data` itself or strictly shorter. Unlike a comparison of lengths this
is kept when parts are put together and still tells when nothing was
gained (`Undercuts.append`). With it the proof goes through the value: a
head undercuts every other head of the same length, the parts of a value
undercut theirs, and a head and what follows it are put together.

Arrays hold values, so the type is nested in itself, and every statement
is proved twice, for a value and for the values of an array, by mutual
recursion in the shape of the type. Nothing here knows what is signed.
-/
import Attestation.Bytes.Basic
import Attestation.Text.Utf8
import Mathlib.Tactic.SplitIfs

namespace Attestation

inductive Cbor where
  | bytes (content : Bytes)
  | text (content : String)
  | array (items : List Cbor)

/-- The first bytes are the second, or there are fewer of them. -/
def Undercuts (best data : Bytes) : Prop :=
  best = data ∨ best.length < data.length

/-- Parts that are the same or shorter make a whole that is. -/
theorem Undercuts.append {best data best' data' : Bytes}
    (h : Undercuts best data) (h' : Undercuts best' data') :
    Undercuts (best ++ best') (data ++ data') := by
  unfold Undercuts
  simp only [List.length_append]
  rcases h with rfl | h
  · rcases h' with rfl | h'
    · exact Or.inl rfl
    · exact Or.inr (by omega)
  · rcases h' with rfl | h' <;> exact Or.inr (by omega)

namespace Cbor

-- ============================================================ heads

/-- How a head writes a length: in its first byte, or in so many bytes
after it. -/
inductive Width where
  | inline
  | one
  | two
  | four
  | eight
deriving DecidableEq

namespace Width

/-- The first length that a width is too small for. -/
def bound : Width → Nat
  | .inline => 24
  | .one => 256
  | .two => 65536
  | .four => 4294967296
  | .eight => 18446744073709551616

/-- The number of bytes after the first. -/
def extra : Width → Nat
  | .inline => 0
  | .one => 1
  | .two => 2
  | .four => 4
  | .eight => 8

/-- What the last five bits of the first byte hold. -/
def info (n : Nat) : Width → Nat
  | .inline => n
  | .one => 24
  | .two => 25
  | .four => 26
  | .eight => 27

/-- The head of a value whose kind has the number `major`. -/
def head (w : Width) (major n : Nat) : Bytes :=
  UInt8.ofNat (32 * major + w.info n) :: Bytes.ofNat w.extra n

theorem length_head (w : Width) (major n : Nat) :
    (w.head major n).length = w.extra + 1 := by
  simp [head]

/-- The least width that a length fits, if any does. -/
def least (n : Nat) : Width :=
  if n < 24 then .inline
  else if n < 256 then .one
  else if n < 65536 then .two
  else if n < 4294967296 then .four
  else .eight

variable {w : Width} {n : Nat}

/-- The least width holds every number that some width holds. -/
theorem lt_bound_least (h : n < w.bound) : n < (least n).bound := by
  have hlast : w.bound ≤ Width.eight.bound := by cases w <;> decide
  have hn : n < 18446744073709551616 := Nat.lt_of_lt_of_le h hlast
  unfold least
  split_ifs <;> assumption

/-- Widths are told apart by the bytes that they add. -/
theorem extra_inj {v : Width} (h : v.extra = w.extra) : v = w := by
  cases v <;> cases w <;> simp_all [extra]

/-- Two bytes are the least width from 256 on. -/
theorem least_eq_two_iff (h : n < 65536) : least n = .two ↔ 256 ≤ n := by
  unfold least
  split_ifs <;> simp <;> omega

/-- Another width that a length fits takes more bytes than the least. -/
theorem least_eq_or_extra_lt (h : n < w.bound) :
    least n = w ∨ (least n).extra < w.extra := by
  unfold least
  cases w <;> simp only [bound] at h <;> split_ifs <;> simp [extra]

/-- Of all heads that a length fits into, the one of least width is the
shortest. -/
theorem head_least_undercuts (major : Nat) (h : n < w.bound) :
    Undercuts ((least n).head major n) (w.head major n) := by
  rcases least_eq_or_extra_lt h with hsame | hless
  · exact Or.inl (by rw [hsame])
  · refine Or.inr ?_
    rw [length_head, length_head]
    omega

end Width

/-- A value with a head of some width that its length fits. -/
def Headed (major length : Nat) (body data : Bytes) : Prop :=
  ∃ w : Width, length < w.bound ∧ data = w.head major length ++ body

/-- A value with the head of least width. -/
def headed (major length : Nat) (body : Bytes) : Bytes :=
  (Width.least length).head major length ++ body

/-- In the least width a value has a head. -/
theorem Headed.least {major n : Nat} {body data : Bytes}
    (h : Headed major n body data) (best : Bytes) :
    Headed major n best (headed major n best) := by
  obtain ⟨w, hfits, -⟩ := h
  exact ⟨Width.least n, Width.lt_bound_least hfits, rfl⟩

/-- A value with the head of least width undercuts the value with any
other head. -/
theorem Headed.undercuts {major n : Nat} {body data best : Bytes}
    (h : Headed major n body data) (hbody : Undercuts best body) :
    Undercuts (headed major n best) data := by
  obtain ⟨w, hfits, rfl⟩ := h
  exact (Width.head_least_undercuts major hfits).append hbody

-- ======================================================== encodings

mutual

/-- The bytes are an encoding of the value. -/
def Writes : Cbor → Bytes → Prop
  | .bytes content, data => Headed 2 content.length content data
  | .text content, data =>
    let body := Utf8.encode content.toList
    Headed 3 body.length body data
  | .array items, data =>
    ∃ body, WritesAll items body ∧ Headed 4 items.length body data

/-- The bytes are encodings of the values, one after another. -/
def WritesAll : List Cbor → Bytes → Prop
  | [], data => data = []
  | item :: items, data =>
    ∃ first more, Writes item first ∧ WritesAll items more
      ∧ data = first ++ more

end

mutual

/-- The encoding in which every head has the least width. -/
def shortest : Cbor → Bytes
  | .bytes content => headed 2 content.length content
  | .text content =>
    let body := Utf8.encode content.toList
    headed 3 body.length body
  | .array items => headed 4 items.length (shortestAll items)

def shortestAll : List Cbor → Bytes
  | [] => []
  | item :: items => shortest item ++ shortestAll items

end

mutual

/-- A value that has an encoding has the shortest one. -/
theorem writes_shortest {data : Bytes} :
    ∀ {v : Cbor}, v.Writes data → v.Writes v.shortest
  | .bytes content, h => Headed.least h content
  | .text content, h => Headed.least h (Utf8.encode content.toList)
  | .array items, h => by
    obtain ⟨body, hitems, h⟩ := h
    exact ⟨shortestAll items, writesAll_shortestAll hitems, h.least _⟩

theorem writesAll_shortestAll {data : Bytes} :
    ∀ {items : List Cbor}, WritesAll items data →
      WritesAll items (shortestAll items)
  | [], _ => rfl
  | item :: items, h => by
    obtain ⟨first, more, hfirst, hmore, -⟩ := h
    exact ⟨shortest item, shortestAll items, writes_shortest hfirst,
      writesAll_shortestAll hmore, rfl⟩

end

mutual

/-- No encoding of a value is shorter than the shortest, and none is as
long. -/
theorem shortest_undercuts {data : Bytes} :
    ∀ {v : Cbor}, v.Writes data → Undercuts v.shortest data
  | .bytes _, h => Headed.undercuts h (Or.inl rfl)
  | .text _, h => Headed.undercuts h (Or.inl rfl)
  | .array items, h => by
    obtain ⟨body, hitems, h⟩ := h
    exact h.undercuts (shortestAll_undercuts hitems)

theorem shortestAll_undercuts {data : Bytes} :
    ∀ {items : List Cbor}, WritesAll items data →
      Undercuts (shortestAll items) data
  | [], h => Or.inl h.symm
  | item :: items, h => by
    obtain ⟨first, more, hfirst, hmore, rfl⟩ := h
    exact (shortest_undercuts hfirst).append (shortestAll_undercuts hmore)

end

/-- An encoding that is shorter than every other. -/
structure IsShortest (v : Cbor) (data : Bytes) : Prop where
  writes : v.Writes data
  undercuts : ∀ other, v.Writes other → Undercuts data other

/-- The shortest encoding is the one with the least heads, and no other
is as short. -/
theorem isShortest_iff {v : Cbor} {data other : Bytes}
    (h : v.Writes other) : v.IsShortest data ↔ data = v.shortest := by
  refine ⟨fun hdata => ?_, fun hdata => ?_⟩
  · rcases hdata.undercuts _ (writes_shortest h) with hsame | hless
    · exact hsame
    · rcases shortest_undercuts hdata.writes with hsame | hmore
      · exact hsame.symm
      · omega
  · subst hdata
    exact ⟨writes_shortest h, fun other => shortest_undercuts⟩

end Cbor

end Attestation
