/-
Bytes that end too early. `r.EndsIn word` says that the unread bytes are
a beginning of `word` but not the whole of it. It is to a word that is
cut off what `Passes` is to a whole one, and composes like it: bytes
that end inside two words put together end inside the first, or pass
over the first and end inside the second (`endsIn_append_iff`). So a cut
anywhere in a format is followed to the one part that it falls into, by
going through the parts in their order, and what has to be shown about a
cut is shown once for each part and not once for each place.

The alternative would be to number the places of a cut and to compute,
for each, how far the reading gets. Formats with parts of variable
length make that a sum of sums; here the lengths are never mentioned,
but for the one fact that a shortfall is shorter
(`EndsIn.rest_length_lt`).

Each read fails on bytes that end inside the word it is after. That is
what the second group of lemmas says, one for each kind of read.

`FallsShort` is what is to come of it: a rule that refuses because data
is missing. It passes through the rules of a format as the failures of
single reads do, at the first step that fails (`FallsShort.bind`) or
after steps that succeed (`FallsShort.after`). The kinds of refusal that
are not missing data have their own such predicates, next to the formats
that use them.
-/
import Attestation.Proofs.Bytes.Passage

namespace Attestation

namespace Reader

/-- The unread bytes end inside `word`, before its last byte is
read. -/
def EndsIn (r : Reader) (word : Bytes) : Prop :=
  ∃ lost, lost ≠ [] ∧ word = r.rest ++ lost

variable {r : Reader} {word more data : Bytes}

-- ======================================================== composing

/-- Bytes that end inside a word are fewer than it has. -/
theorem EndsIn.rest_length_lt (h : r.EndsIn word) :
    r.rest.length < word.length := by
  obtain ⟨lost, hlost, hword⟩ := h
  have hpos := List.length_pos_iff.2 hlost
  rw [hword, List.length_append]
  omega

/-- Bytes that end inside the second of two words end between the ends
of the two. -/
theorem EndsIn.length_of_passes (h : r.EndsIn more)
    (hword : (ofBytes data).Passes word r) :
    word.length ≤ data.length
      ∧ data.length < word.length + more.length := by
  have hlt := h.rest_length_lt
  rw [hword.eq_append, List.length_append]
  omega

/-- Bytes that end in a word are a beginning of it. -/
theorem EndsIn.rest_prefix (h : r.EndsIn word) : r.rest <+: word := by
  obtain ⟨lost, -, hword⟩ := h
  exact ⟨lost, hword.symm⟩

/-- Bytes that end inside two words end inside the first of them, or
inside the second after the first was passed over. -/
theorem endsIn_append_iff :
    r.EndsIn (word ++ more)
      ↔ r.EndsIn word ∨ ∃ r', r.Passes word r' ∧ r'.EndsIn more := by
  constructor
  · intro h
    obtain ⟨lost, hlost, happend⟩ := h
    rcases List.append_eq_append_iff.1 happend with ⟨after, hrest, hmore⟩
      | ⟨cut, hword, hcut⟩
    · obtain ⟨r', hpasses, hafter⟩ := exists_passes hrest
      exact Or.inr ⟨r', hpasses, lost, hlost, by rw [hafter, hmore]⟩
    · by_cases hnil : cut = []
      · -- the bytes end exactly between the two words
        rw [hnil, List.append_nil] at hword
        rw [hnil, List.nil_append] at hcut
        have hrest : r.rest = word ++ [] := by
          rw [List.append_nil, hword]
        obtain ⟨r', hpasses, hafter⟩ := exists_passes hrest
        refine Or.inr ⟨r', hpasses, lost, hlost, ?_⟩
        rw [hafter, List.nil_append, hcut]
      · exact Or.inl ⟨cut, hnil, hword⟩
  · intro h
    rcases h with ⟨lost, hlost, hword⟩ | ⟨r', hpasses, lost, hlost, hmore⟩
    · refine ⟨lost ++ more, ?_, by rw [hword, List.append_assoc]⟩
      intro hnil
      exact hlost (List.append_eq_nil_iff.1 hnil).1
    · refine ⟨lost, hlost, ?_⟩
      rw [hmore, hpasses.rest_eq, List.append_assoc]

/-- Bytes that end inside a single byte have ended before it. -/
theorem endsIn_singleton_iff {b : UInt8} :
    r.EndsIn [b] ↔ r.rest = [] := by
  constructor
  · intro h
    have hlt := h.rest_length_lt
    exact List.length_eq_zero_iff.1 (Nat.lt_one_iff.1 hlt)
  · intro h
    exact ⟨[b], List.cons_ne_nil b [], by rw [h, List.nil_append]⟩

/-- The first byte of a word is missing, or it is there and the bytes
end inside the others. -/
theorem endsIn_cons_iff {b : UInt8} :
    r.EndsIn (b :: word)
      ↔ r.rest = [] ∨ ∃ r', r.Passes [b] r' ∧ r'.EndsIn word := by
  rw [← List.singleton_append, endsIn_append_iff, endsIn_singleton_iff]

-- ==================================================== the operations

/-- Not so many bytes can be taken as are cut off. -/
theorem take?_of_endsIn (h : r.EndsIn data) :
    r.take? data.length = none :=
  take?_of_lt h.rest_length_lt

theorem fixed?_of_endsIn {n : Nat} (h : r.EndsIn data)
    (hn : data.length = n) : r.fixed? n = none := by
  rw [fixed?, ← hn, take?_of_endsIn h]

/-- A number whose digits are cut off is not read. -/
theorem nat?_of_endsIn {width n : Nat} (h : r.EndsIn (Bytes.ofNat width n)) :
    r.nat? width = none := by
  have htake := take?_of_endsIn h
  rw [Bytes.length_ofNat] at htake
  rw [nat?, htake]
  rfl

theorem byte?_of_rest_nil (h : r.rest = []) : r.byte? = none := by
  rw [byte?, h]

/-- An expected word that is cut off is not passed over. -/
theorem pass?_of_endsIn (h : r.EndsIn word) : r.pass? word = none := by
  rw [Option.eq_none_iff_forall_ne_some]
  intro r' hpass
  have hlt := h.rest_length_lt
  rw [(pass?_iff_passes.1 hpass).rest_eq, List.length_append] at hlt
  omega

end Reader

-- ===================================================== missing data

/-- The rule refuses because data is missing, or because there is too
much of it. -/
def FallsShort {α : Type} (x : Except Refusal α) : Prop :=
  ∃ consumed length, x = .error (.trailingOrMissingData consumed length)

namespace FallsShort

variable {α β : Type} {x : Except Refusal α} {f : α → Except Refusal β}

/-- What is missing at a reader is missing for everything after it. -/
theorem demand {value? : Option α} {r : Reader} (h : value? = none) :
    FallsShort (Attestation.demand value? r.missing) := by
  rw [h]
  exact ⟨_, _, rfl⟩

/-- If the first step falls short the whole does. -/
theorem bind (h : FallsShort x) : FallsShort (x >>= f) := by
  obtain ⟨consumed, length, hx⟩ := h
  rw [hx]
  exact ⟨consumed, length, rfl⟩

/-- A step that succeeds leaves it to the next ones. -/
theorem after {value : α} (hx : x = .ok value) (h : FallsShort (f value)) :
    FallsShort (x >>= f) := by
  rw [hx]
  exact h

theorem require {p : Prop} [Decidable p] {reason : Refusal}
    {f : Unit → Except Refusal β} (hp : p) (h : FallsShort (f ())) :
    FallsShort (Attestation.require p reason >>= f) :=
  .after (require_eq_ok_iff.2 hp) h

end FallsShort

end Attestation
