/-
What expected values come to when they are stated one after another. For
each index the last entry counts, and the ones before it are forgotten
(`mem_ofList_iff`). So registers are accepted when they meet the last
entry of every index that is stated at all (`accept_ofList_iff`), and an
entry for an index that has no other only adds a condition
(`lastFor_insert`).

`Met` says the same without a look-up, of a row of entries of any
length, and `accept_ofList_decides` that it is what is decided. Entries
for different indexes can be told apart by nothing but their indexes, so
their order has no say (`lastFor_of_same_filter`).

What an index stands for is decided by the registers. An index that no
register is kept for finds no value (`exists_slot_of_get?`), so one
entry for it refuses every document, and nothing that is stated later
makes up for it, as a later entry for the same index finds none either.

The induction is on the entries from the end, as they are stated one
after another: the last one decides its own index, and leaves all others
as they were (`lastFor_append_singleton`).
-/
import Attestation.Trust.Acceptance
import Mathlib.Data.List.Induction

namespace Attestation

namespace Expectations

variable {entries before after : List (UInt8 × Pcr)}
  {index other : UInt8} {value : Pcr}

/-- The value in the last entry for an index. -/
def lastFor (entries : List (UInt8 × Pcr)) (index : UInt8) : Option Pcr :=
  entries.reverse.lookup index

/-- An entry behind others decides its own index and no other. -/
theorem lastFor_append_singleton :
    lastFor (entries ++ [(index, value)]) other
      = if other = index then some value else lastFor entries other := by
  unfold lastFor
  rw [List.reverse_append]
  by_cases h : other = index
  · simp [h]
  · have hother : (other == index) = false := beq_eq_false_iff_ne.2 h
    simp [List.lookup_cons, h, hother]

/-- An entry says nothing about other indexes. -/
theorem lastFor_insert (h : other ≠ index) :
    lastFor (before ++ (index, value) :: after) other
      = lastFor (before ++ after) other := by
  have hother : (other == index) = false := beq_eq_false_iff_ne.2 h
  simp [lastFor, List.lookup_append, List.lookup_cons, hother]

theorem mem_of_lastFor (h : lastFor entries index = some value) :
    (index, value) ∈ entries := by
  obtain ⟨before, after, hsplit, -⟩ := List.lookup_eq_some_iff.1 h
  rw [← List.mem_reverse, hsplit]
  simp

/-- An entry is the last for its index when no later one is for it. -/
theorem lastFor_of_later (h : ∀ entry ∈ after, entry.1 ≠ index) :
    lastFor (before ++ (index, value) :: after) index = some value := by
  have hafter : after.reverse.lookup index = Option.none := by
    rw [List.lookup_eq_none_iff]
    intro entry hentry
    have hne := h entry (List.mem_reverse.1 hentry)
    exact bne_iff_ne.2 (Ne.symm hne)
  simp [lastFor, List.lookup_append, hafter]

/-- By induction on the entries, the last first: it takes the place of
all before it for its index, and leaves the rest. -/
theorem mem_ofList_iff :
    (index, value) ∈ (ofList entries).entries
      ↔ lastFor entries index = some value := by
  induction entries using List.reverseRecOn with
  | nil => simp [ofList, none, lastFor]
  | append_singleton entries entry ih =>
    obtain ⟨i, v⟩ := entry
    have hlast : ofList (entries ++ [(i, v)])
        = (ofList entries).expect i v := by
      simp [ofList, List.foldl_append]
    rw [hlast, lastFor_append_singleton, expect, List.mem_cons,
      List.mem_filter, ih]
    by_cases h : index = i
    · simp [h, eq_comm (a := value)]
    · simp [h]

/-- Registers are accepted if they meet the last entry of every index.
-/
theorem accept_ofList_iff {pcrs : Pcrs} :
    (ofList entries).accept pcrs = true
      ↔ ∀ index value, lastFor entries index = some value →
          pcrs.get? index.toNat = some value := by
  rw [accept, List.all_eq_true]
  refine ⟨fun h index value hlast => ?_, fun h entry hmem => ?_⟩
  · exact beq_iff_eq.1 (h (index, value) (mem_ofList_iff.2 hlast))
  · obtain ⟨index, value⟩ := entry
    exact beq_iff_eq.2 (h index value (mem_ofList_iff.1 hmem))

-- ================================================ without a look-up

/-- An entry is the last for its index where the row can be split after
it into entries for other indexes. -/
theorem lastFor_eq_some_iff :
    lastFor entries index = some value
      ↔ ∃ before after, entries = before ++ (index, value) :: after
          ∧ ∀ entry ∈ after, entry.1 ≠ index := by
  constructor
  · intro h
    obtain ⟨later, earlier, hsplit, hlater⟩ := List.lookup_eq_some_iff.1 h
    refine ⟨earlier.reverse, later.reverse, ?_, ?_⟩
    · rw [← List.reverse_reverse entries, hsplit]
      simp
    · intro entry hentry
      have hne := hlater entry (List.mem_reverse.1 hentry)
      exact Ne.symm (bne_iff_ne.1 hne)
  · intro h
    obtain ⟨before, after, hsplit, hafter⟩ := h
    rw [hsplit]
    exact lastFor_of_later hafter

/-- Whatever index is stated at all is stated a last time. -/
theorem exists_lastFor (h : (index, value) ∈ entries) :
    ∃ last, lastFor entries index = some last := by
  rw [← Option.isSome_iff_exists, lastFor, List.lookup_isSome_iff]
  exact ⟨(index, value), List.mem_reverse.2 h, beq_self_eq_true index⟩

/-- By induction on the entries, the last first, as for `ofList`. -/
theorem lastFor_eq_getLast? (entries : List (UInt8 × Pcr))
    (index : UInt8) :
    lastFor entries index
      = (entries.filter fun entry => entry.1 == index).getLast?.map
          Prod.snd := by
  induction entries using List.reverseRecOn with
  | nil => rfl
  | append_singleton entries entry ih =>
    obtain ⟨i, v⟩ := entry
    rw [lastFor_append_singleton, List.filter_append, ih]
    by_cases h : index = i
    · simp [h]
    · have hother : (i == index) = false := beq_eq_false_iff_ne.2 (Ne.symm h)
      simp [h, hother]

/-- Rows with the same entries for each index, in the same order, have
the same last entries. -/
theorem lastFor_of_same_filter {others : List (UInt8 × Pcr)}
    (h : ∀ index, (others.filter fun entry => entry.1 == index)
      = entries.filter fun entry => entry.1 == index) :
    lastFor others = lastFor entries := by
  funext index
  rw [lastFor_eq_getLast?, lastFor_eq_getLast?, h]

-- ======================================================= the decision

/-- The indexes of the registers that are kept. -/
def keptIndexes : List UInt8 :=
  [0, 1, 2, 3, 4, 8]

/-- Registers meet expectations that are stated one after another: every
index among them is that of a register that is kept, and the value in
the last entry for it is the register's. -/
structure Met (entries : List (UInt8 × Pcr)) (pcrs : Pcrs) : Prop where
  kept : ∀ entry ∈ entries, entry.1 ∈ keptIndexes
  last : ∀ before index value after,
    entries = before ++ (index, value) :: after →
      (∀ entry ∈ after, entry.1 ≠ index) →
        ∀ slot : Slot, slot.index = index.toNat →
          pcrs.value slot = value

/-- The indexes that are kept are those of the registers. -/
theorem mem_keptIndexes_iff :
    index ∈ keptIndexes ↔ ∃ slot : Slot, slot.index = index.toNat := by
  constructor
  · intro h
    simp only [keptIndexes, List.mem_cons, List.not_mem_nil, or_false] at h
    rcases h with rfl | rfl | rfl | rfl | rfl | rfl
    · exact ⟨.pcr0, rfl⟩
    · exact ⟨.pcr1, rfl⟩
    · exact ⟨.pcr2, rfl⟩
    · exact ⟨.pcr3, rfl⟩
    · exact ⟨.pcr4, rfl⟩
    · exact ⟨.pcr8, rfl⟩
  · intro h
    obtain ⟨slot, hslot⟩ := h
    rw [← UInt8.ofNat_toNat (x := index), ← hslot]
    cases slot <;> decide

/-- Looking a kept register up by its index comes to its value. -/
theorem get?_index (pcrs : Pcrs) (slot : Slot) :
    pcrs.get? slot.index = some (pcrs.value slot) := by
  cases slot <;> rfl

/-- Looking a register up fails for every index but the six. -/
theorem exists_slot_of_get? {pcrs : Pcrs}
    (h : pcrs.get? index.toNat = some value) :
    ∃ slot : Slot, slot.index = index.toNat := by
  obtain ⟨slot, hslot, -⟩ := Option.map_eq_some_iff.1 h
  rw [Slot.ofIndex?] at hslot
  exact ⟨slot, beq_iff_eq.1 (List.find?_some hslot :)⟩

/-- What is decided, without a look-up. -/
theorem accept_ofList_iff_met {pcrs : Pcrs} :
    (ofList entries).accept pcrs = true ↔ Met entries pcrs := by
  rw [accept_ofList_iff]
  constructor
  · intro h
    constructor
    case kept =>
      rintro ⟨index, value⟩ hmem
      obtain ⟨last, hlast⟩ := exists_lastFor hmem
      exact mem_keptIndexes_iff.2 (exists_slot_of_get? (h index last hlast))
    case last =>
      intro before index value after hsplit hafter slot hslot
      have hget := h index value
        (lastFor_eq_some_iff.2 ⟨before, after, hsplit, hafter⟩)
      rw [← hslot, get?_index] at hget
      exact Option.some.inj hget
  · intro h index value hlast
    obtain ⟨before, after, hsplit, hafter⟩ := lastFor_eq_some_iff.1 hlast
    obtain ⟨slot, hslot⟩ := mem_keptIndexes_iff.1
      (h.kept (index, value) (mem_of_lastFor hlast))
    rw [← hslot, get?_index,
      h.last before index value after hsplit hafter slot hslot]

/-- Two entries for different indexes stand in either order. -/
theorem filter_swap {a b : UInt8 × Pcr} (hne : a.1 ≠ b.1)
    (before after : List (UInt8 × Pcr)) (index : UInt8) :
    ((before ++ b :: a :: after).filter fun entry => entry.1 == index)
      = (before ++ a :: b :: after).filter fun entry => entry.1 == index := by
  by_cases ha : a.1 = index
  · have hb : (b.1 == index) = false :=
      beq_eq_false_iff_ne.2 fun hb => hne (ha.trans hb.symm)
    simp [List.filter_cons, hb]
  · have ha : (a.1 == index) = false := beq_eq_false_iff_ne.2 ha
    simp [List.filter_cons, ha]

/-- What is decided about registers when expectations are stated one
after another, any number of them. They are accepted exactly when they
meet the last expectation for each index. So only the order among the
expectations for one index matters: two neighbours for different indexes
may be swapped. And a single expectation for a register that is not kept
rejects everything. -/
theorem accept_ofList_decides (entries : List (UInt8 × Pcr))
    (pcrs : Pcrs) :
    ((ofList entries).accept pcrs = true ↔ Met entries pcrs)
      ∧ (∀ others : List (UInt8 × Pcr),
          (∀ index, (others.filter fun entry => entry.1 == index)
            = entries.filter fun entry => entry.1 == index) →
          (ofList others).accept pcrs = (ofList entries).accept pcrs)
      ∧ (∀ before a b after, entries = before ++ a :: b :: after →
          a.1 ≠ b.1 →
            (ofList (before ++ b :: a :: after)).accept pcrs
              = (ofList entries).accept pcrs)
      ∧ ∀ entry ∈ entries, entry.1 ∉ keptIndexes →
          (ofList entries).accept pcrs = false := by
  have hsame (others : List (UInt8 × Pcr))
      (h : ∀ index, (others.filter fun entry => entry.1 == index)
        = entries.filter fun entry => entry.1 == index) :
      (ofList others).accept pcrs = (ofList entries).accept pcrs := by
    rw [Bool.eq_iff_iff, accept_ofList_iff, accept_ofList_iff,
      lastFor_of_same_filter h]
  refine ⟨accept_ofList_iff_met, hsame, ?_, ?_⟩
  · intro before a b after hentries hne
    refine hsame _ ?_
    rw [hentries]
    exact filter_swap hne before after
  · intro entry hmem hindex
    rw [← Bool.not_eq_true, accept_ofList_iff_met]
    intro hmet
    exact hindex (hmet.kept entry hmem)

end Expectations

end Attestation
