/-
A walk taken in two halves. The entries of a bundle are framed and
looked into one at a time, so a walk over bytes that begin with some
framed entries takes these into the chain (`takeIn`) and then goes on
with what is left (`entries_of_passes`): behind a whole bundle, with the
enclave's own certificate (`chain_write_eq`). What a walk does with the
beginning of a bundle can therefore be told without the rest of it: when
the rest is cut off, when it is something else, and when nobody gets
that far.

A walk that fails does so in one of three ways (`refuses_of_chain`): it
cannot frame an entry, it refuses an entry, or it refuses the enclave's
own certificate. If it refuses an entry, it fails in the same way over
every bundle that begins with the entries up to that one
(`chain_of_refusesEntry`). A `Beginning` is such a bundle as far as it
was written, with the number of entries that it announces.

`takeIn` differs from the linking of a row in that it confirms the root
on its way, at index zero, as the walk itself does. The row is the
better form for saying which chains are good; this one is the better
form for cutting a walk in two, since it goes entry by entry in the
order of the bytes.
-/
import Attestation.Proofs.Signature.Path
import Attestation.Proofs.Trust.Framing

namespace Attestation

open Reader Inquiry Attestation.Bundle

namespace Inquiry

variable {α β : Type}

/-- What follows an inquiry may be replaced by what agrees with it on
the values that the inquiry can come to. -/
theorem bind_congr_ends {x : Inquiry α} {f g : α → Inquiry β}
    (h : ∀ value calls, x.Ends calls (.ok value) → f value = g value) :
    x.bind f = x.bind g := by
  induction x with
  | done value => exact h value [] (.done value)
  | refused reason => rfl
  | ask query next ih =>
    rw [bind, bind]
    congr 1
    funext answer
    exact ih answer fun value calls hends =>
      h value (⟨query, answer⟩ :: calls) (.ask query next answer hends)

end Inquiry

namespace Walk

/-- Takes entries into the chain, one after another, from an index
on. -/
def takeIn (w : Walk) (index : Nat) (issuer : Issuer) :
    List Bytes → Inquiry Issuer
  | [] => .done issuer
  | der :: later =>
    (w.extend index issuer der).bind fun issuer =>
      w.takeIn (index + 1) issuer later

variable {w : Walk} {index : Nat} {issuer issuer' : Issuer}
  {r r' : Reader} {calls : List Call}

theorem takeIn_singleton {der : Bytes} :
    w.takeIn index issuer [der] = w.extend index issuer der :=
  bind_done _

/-- Entries are taken in one beginning after another. -/
theorem takeIn_append (ders more : List Bytes) :
    w.takeIn index issuer (ders ++ more)
      = (w.takeIn index issuer ders).bind fun issuer =>
          w.takeIn (index + ders.length) issuer more := by
  induction ders generalizing index issuer with
  | nil => rfl
  | cons der later ih =>
    rw [List.cons_append, takeIn, takeIn, bind_assoc]
    congr 1
    funext issuer
    rw [ih, List.length_cons, Nat.add_right_comm, Nat.add_assoc]

theorem entries_succ_of_passes {der : Bytes} (hlt : der.length < 65536)
    (h : r.Passes (frame der) r') (left : Nat) :
    w.entries index issuer r (left + 1)
      = (w.extend index issuer der).bind fun issuer =>
          w.entries (index + 1) issuer r' left := by
  rw [entries, entry_iff_passes.2 ⟨hlt, h⟩]
  rfl

/-- A walk over framed entries takes them into the chain and goes on
after them. -/
theorem entries_of_passes {ders : List Bytes}
    (hlt : ∀ der ∈ ders, der.length < 65536)
    (h : r.Passes (ders.flatMap frame) r') (left : Nat) :
    w.entries index issuer r (ders.length + left)
      = (w.takeIn index issuer ders).bind fun issuer =>
          w.entries (index + ders.length) issuer r' left := by
  induction ders generalizing index issuer r with
  | nil =>
    rw [h.unique (Passes.refl r), List.length_nil, Nat.zero_add]
    rfl
  | cons der later ih =>
    obtain ⟨hfirst, hlt⟩ := List.forall_mem_cons.1 hlt
    rw [List.flatMap_cons] at h
    obtain ⟨r₁, hframe, hlater⟩ := passes_append_iff.1 h
    rw [List.length_cons, Nat.add_right_comm,
      entries_succ_of_passes hfirst hframe, takeIn, bind_assoc]
    congr 1
    funext issuer
    rw [ih hlt hlater, Nat.add_right_comm, Nat.add_assoc]

/-- A walk that comes to the end of the entries has framed them all and
taken them into the chain. -/
theorem exists_takeIn_of_entries {left : Nat}
    (h : (w.entries index issuer r left).Ends calls
      (.ok (issuer', r'))) :
    ∃ ders, ders.length = left ∧ (∀ der ∈ ders, der.length < 65536)
      ∧ r.Passes (ders.flatMap frame) r'
      ∧ (w.takeIn index issuer ders).Ends calls (.ok issuer') := by
  induction left generalizing index issuer r calls with
  | zero =>
    obtain ⟨hcalls, hsame⟩ := ends_done_iff.1 h
    cases hsame
    rw [hcalls]
    exact ⟨[], rfl, List.forall_mem_nil _, .refl _, .done _⟩
  | succ left ih =>
    obtain ⟨⟨der, r₁⟩, hentry, h⟩ := ends_ofExcept_bind_ok_iff.1 h
    obtain ⟨next, first, later, hextend, h, hcalls⟩ := ends_bind_ok_iff.1 h
    obtain ⟨hlt, hframe⟩ := entry_iff_passes.1 hentry
    obtain ⟨ders, hlength, hall, hframes, htaken⟩ := ih h
    refine ⟨der :: ders, by rw [List.length_cons, hlength],
      List.forall_mem_cons.2 ⟨hlt, hall⟩, ?_, ?_⟩
    · rw [List.flatMap_cons]
      exact hframe.trans hframes
    · rw [hcalls]
      exact hextend.bind_ok htaken

/-- A walk that does not come to the end of the entries has taken some
of them into the chain. The next one cannot be framed, or it is framed
and not taken in. -/
theorem exists_takeIn_of_entries_error {left : Nat} {reason : Refusal}
    (h : (w.entries index issuer r left).Ends calls (.error reason)) :
    ∃ ders first last r₁, ders.length < left
      ∧ (∀ der ∈ ders, der.length < 65536)
      ∧ r.Passes (ders.flatMap frame) r₁
      ∧ (w.takeIn index issuer ders).Ends first (.ok last)
      ∧ ((Bundle.entry r₁ = .error reason ∧ calls = first)
        ∨ ∃ der r₂ later, der.length < 65536
          ∧ r₁.Passes (frame der) r₂
          ∧ (w.extend (index + ders.length) last der).Ends later
              (.error reason)
          ∧ calls = first ++ later) := by
  induction left generalizing index issuer r calls with
  | zero => cases h
  | succ left ih =>
    rcases ends_ofExcept_bind_iff.1 h with ⟨reason', hentry, hcalls, ho⟩
      | ⟨⟨der, r₁⟩, hentry, h⟩
    · cases ho
      exact ⟨[], [], issuer, r, Nat.succ_pos left, List.forall_mem_nil _,
        .refl r, .done issuer, Or.inl ⟨hentry, hcalls⟩⟩
    obtain ⟨hlt, hframe⟩ := entry_iff_passes.1 hentry
    rcases ends_bind_iff.1 h with ⟨reason', hextend, ho⟩
      | ⟨next, first, later, hextend, h, hcalls⟩
    · cases ho
      exact ⟨[], [], issuer, r, Nat.succ_pos left, List.forall_mem_nil _,
        .refl r, .done issuer,
        Or.inr ⟨der, r₁, calls, hlt, hframe, hextend, rfl⟩⟩
    · obtain ⟨ders, middle, last, r₂, hlength, hall, hframes, htaken, hend⟩ :=
        ih h
      refine ⟨der :: ders, first ++ middle, last, r₂,
        Nat.succ_lt_succ hlength, List.forall_mem_cons.2 ⟨hlt, hall⟩,
        ?_, hextend.bind_ok htaken, ?_⟩
      · rw [List.flatMap_cons]
        exact hframe.trans hframes
      · have hindex : index + (der :: ders).length
            = index + 1 + ders.length := by
          rw [List.length_cons, Nat.add_right_comm, Nat.add_assoc]
        rw [hindex, hcalls]
        rcases hend with ⟨hentry, hsame⟩
          | ⟨der', r₃, tail, hlt', hframe', hrefused, hsame⟩
        · exact Or.inl ⟨hentry, by rw [hsame]⟩
        · exact Or.inr ⟨der', r₃, tail, hlt', hframe', hrefused,
            by rw [hsame, List.append_assoc]⟩

/-- A walk over a bundle takes its entries into the chain, links the
enclave's own certificate, and uses the bundle and nothing more. -/
theorem chain_write_eq (b : Bundle) (certificate more : Bytes) :
    w.chain certificate (b.write ++ more)
      = (w.takeIn 0 w.anchor.issuer b.entries).bind fun issuer =>
          (w.leaf b.entries.length issuer certificate).bind fun issuer =>
            .done (issuer.key, b.write.length) := by
  obtain ⟨q', h, -⟩ := exists_passes_ofBytes (rfl : b.write ++ more = _)
  obtain ⟨q, hheader, hframes⟩ := passes_append_iff.1 h
  have hcount : Bundle.count (ofBytes (b.write ++ more))
      = .ok (b.entries.length, q) :=
    count_iff_passes.2 ⟨b.count_le, hheader⟩
  have hentries : w.entries 0 w.anchor.issuer q b.entries.length
      = (w.takeIn 0 w.anchor.issuer b.entries).bind fun issuer =>
          w.entries (0 + b.entries.length) issuer q' 0 :=
    entries_of_passes b.entry_lt hframes 0
  rw [chain, hcount]
  show (w.entries 0 w.anchor.issuer q b.entries.length).bind _ = _
  rw [hentries, bind_assoc, ← h.position_eq_length]
  rfl

/-- A walk that succeeds has taken all entries into the chain. -/
theorem exists_takeIn_of_chain {b : Bundle} {certificate more : Bytes}
    {value : PublicKey × Nat}
    (h : (w.chain certificate (b.write ++ more)).Ends calls
      (.ok value)) :
    ∃ issuer first later, calls = first ++ later
      ∧ (w.takeIn 0 w.anchor.issuer b.entries).Ends first
          (.ok issuer) := by
  rw [chain_write_eq] at h
  obtain ⟨issuer, first, later, htaken, -, hcalls⟩ := ends_bind_ok_iff.1 h
  exact ⟨issuer, first, later, hcalls, htaken⟩

end Walk

-- ===================================================== where walks fail

/-- The beginning of a bundle, whose header says that there are `count`
entries in all. -/
structure Bundle.Beginning where
  count : Nat
  entries : List Bytes
  count_le : count ≤ 15
  length_le : entries.length ≤ count
  entry_lt : ∀ der ∈ entries, der.length < 65536

def Bundle.Beginning.write (b : Beginning) : Bytes :=
  header b.count ++ b.entries.flatMap frame

namespace Walk

variable {w : Walk} {certificate cabundle : Bytes} {calls : List Call}
  {reason : Refusal}

/-- The walk fails over the framing of the bundle: its header, or an
entry that cannot be framed after the ones before it were taken into the
chain. -/
inductive RefusesFraming (w : Walk) (cabundle : Bytes) :
    List Call → Refusal → Prop where
  | header {reason : Refusal}
      (h : Bundle.count (ofBytes cabundle) = .error reason) :
      RefusesFraming w cabundle [] reason
  | entry {b : Beginning} {issuer : Issuer} {q : Reader}
      {calls : List Call} {reason : Refusal}
      (hmore : b.entries.length < b.count)
      (hframed : (ofBytes cabundle).Passes b.write q)
      (htaken : (w.takeIn 0 w.anchor.issuer b.entries).Ends calls
        (.ok issuer))
      (hentry : Bundle.entry q = .error reason) :
      RefusesFraming w cabundle calls reason

/-- All entries of the beginning but the last are taken into the chain,
and the last is not: it cannot be parsed, or it is not linked. -/
def RefusesEntry (w : Walk) (b : Beginning) (calls : List Call)
    (reason : Refusal) : Prop :=
  ∃ ders der issuer first later, b.entries = ders ++ [der]
    ∧ (w.takeIn 0 w.anchor.issuer ders).Ends first (.ok issuer)
    ∧ (w.extend ders.length issuer der).Ends later (.error reason)
    ∧ calls = first ++ later

/-- All entries are taken into the chain, and the enclave's own
certificate is not. -/
def RefusesOwn (w : Walk) (certificate : Bytes) (b : Bundle)
    (calls : List Call) (reason : Refusal) : Prop :=
  ∃ issuer first later,
    (w.takeIn 0 w.anchor.issuer b.entries).Ends first (.ok issuer)
      ∧ (w.leaf b.entries.length issuer certificate).Ends later
          (.error reason)
      ∧ calls = first ++ later

/-- A walk that fails does so over the framing, over an entry, or over
the enclave's own certificate. -/
theorem refuses_of_chain
    (h : (w.chain certificate cabundle).Ends calls (.error reason)) :
    w.RefusesFraming cabundle calls reason
      ∨ (∃ b : Bundle, ∃ more, cabundle = b.write ++ more
        ∧ w.RefusesOwn certificate b calls reason)
      ∨ ∃ b : Beginning, ∃ more, cabundle = b.write ++ more
        ∧ w.RefusesEntry b calls reason := by
  rcases ends_ofExcept_bind_iff.1 h with ⟨reason', hcount, hcalls, ho⟩
    | ⟨⟨n, q⟩, hcount, h⟩
  · cases ho
    rw [hcalls]
    exact Or.inl (.header hcount)
  obtain ⟨hn, hheader⟩ := count_iff_passes.1 hcount
  rcases ends_bind_iff.1 h with ⟨reason', hentries, ho⟩
    | ⟨⟨issuer, q'⟩, first, tail, hentries, h, hcalls⟩
  · cases ho
    obtain ⟨ders, first, last, r₁, hlength, hlt, hframes, htaken, hend⟩ :=
      exists_takeIn_of_entries_error hentries
    rcases hend with ⟨hentry, hsame⟩
      | ⟨der, r₂, later, hder, hframe, hrefused, hsame⟩
    · -- the next entry could not be framed
      let b : Beginning := ⟨n, ders, hn, Nat.le_of_lt hlength, hlt⟩
      have hframed : (ofBytes cabundle).Passes b.write r₁ :=
        hheader.trans hframes
      rw [hsame]
      exact Or.inl (.entry hlength hframed htaken hentry)
    · -- the next entry was framed and refused
      let b : Beginning := {
        count := n
        entries := ders ++ [der]
        count_le := hn
        length_le := by
          rw [List.length_append, List.length_singleton]
          exact hlength
        entry_lt := List.forall_mem_append.2
          ⟨hlt, List.forall_mem_singleton.2 hder⟩ }
      have hframed : (ofBytes cabundle).Passes b.write r₂ := by
        rw [Beginning.write, List.flatMap_append, List.flatMap_singleton]
        exact hheader.trans (hframes.trans hframe)
      rw [Nat.zero_add] at hrefused
      exact Or.inr (Or.inr ⟨b, r₂.rest, hframed.eq_append,
        ders, der, last, first, later, rfl, htaken, hrefused, hsame⟩)
  · obtain ⟨ders, hlength, hlt, hframes, htaken⟩ :=
      exists_takeIn_of_entries hentries
    subst hlength
    rcases ends_bind_iff.1 h with ⟨reason', hleaf, ho⟩
      | ⟨last, second, third, -, h, -⟩
    · cases ho
      exact Or.inr (Or.inl ⟨⟨ders, hn, hlt⟩, q'.rest,
        (hheader.trans hframes).eq_append,
        issuer, first, tail, htaken, hleaf, hcalls⟩)
    · cases (ends_done_iff.1 h).2

/-- Where all entries are taken in and the enclave's own certificate is
not, the walk fails. -/
theorem chain_of_refusesOwn {b : Bundle}
    (h : w.RefusesOwn certificate b calls reason) (more : Bytes) :
    (w.chain certificate (b.write ++ more)).Ends calls
      (.error reason) := by
  obtain ⟨issuer, first, later, htaken, hrefused, hcalls⟩ := h
  rw [chain_write_eq, hcalls]
  exact htaken.bind_ok hrefused.bind_error

/-- A walk over a bundle that begins with entries of which it refuses
the last fails in the same way, whatever the enclave's own certificate
is and whatever follows these entries. -/
theorem chain_of_refusesEntry {b : Beginning}
    (h : w.RefusesEntry b calls reason) (certificate more : Bytes) :
    (w.chain certificate (b.write ++ more)).Ends calls
      (.error reason) := by
  obtain ⟨ders, der, issuer, first, later, hb, htaken, hrefused, hcalls⟩ := h
  have htake : (w.takeIn 0 w.anchor.issuer b.entries).Ends calls
      (.error reason) := by
    rw [hb, takeIn_append, hcalls, Nat.zero_add]
    exact htaken.bind_ok hrefused.bind_error
  obtain ⟨left, hleft⟩ := Nat.exists_eq_add_of_le b.length_le
  obtain ⟨q', h, -⟩ := exists_passes_ofBytes (rfl : b.write ++ more = _)
  obtain ⟨q, hheader, hframes⟩ := passes_append_iff.1 h
  refine ends_ofExcept_bind_iff.2 (Or.inr ⟨(b.count, q),
    count_iff_passes.2 ⟨b.count_le, hheader⟩, ?_⟩)
  have hentries : (w.entries 0 w.anchor.issuer q b.count).Ends calls
      (.error reason) := by
    rw [hleft, entries_of_passes b.entry_lt hframes]
    exact htake.bind_error
  exact hentries.bind_error

end Walk

end Attestation
