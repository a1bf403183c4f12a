/-
The bundle as it is written: a header with the count of the entries, and
each entry behind a header with its length. A `Bundle` is what can be
written so (at most fifteen entries, each of fewer than 65536 bytes).

`Bundle.frames` reads entries without looking into them: those that can
be read, and then the reader after them or the reason why the next one
cannot be read. A walk that looks into each entry before it reads the
next one comes to the same frames, which is shown where the walk is
taken apart.

All entries can be read exactly when a bundle is written there
(`exists_frames_iff`). When the bytes stop short of that, `Framed` says
which entries stand there, without reading: some entries one after
another, and then nothing that begins with a further one. These are the
entries that are read (`framed_frames`), and no others are framed there
(`Framed.frames_eq`), since a header and a length leave no choice of the
entry that follows.
-/
import Attestation.Proofs.Bytes.Passage
import Attestation.Trust.Walk

namespace Attestation

open Reader

/-- The entries of a bundle. -/
structure Bundle where
  entries : List Bytes
  count_le : entries.length ≤ 15
  entry_lt : ∀ der ∈ entries, der.length < 65536

namespace Bundle

-- ===================================================== written bundles

/-- The header of a bundle of `n` entries. -/
def header (n : Nat) : Bytes :=
  [UInt8.ofNat (0x80 + n)]

/-- An entry with its header. -/
def frame (der : Bytes) : Bytes :=
  0x59 :: Bytes.ofNat 2 der.length ++ der

/-- The bundle. -/
def write (b : Bundle) : Bytes :=
  header b.entries.length ++ b.entries.flatMap frame

-- ====================================================== single reads

variable {r r' : Reader}

/-- A count is read where the header of a bundle stands. -/
theorem count_iff_passes {n : Nat} :
    count r = .ok (n, r') ↔ n ≤ 15 ∧ r.Passes (header n) r' := by
  unfold count
  constructor
  · intro h
    obtain ⟨⟨b, r₁⟩, hb, h⟩ := bind_eq_ok_iff.1 h
    obtain ⟨_, hrange, h⟩ := bind_eq_ok_iff.1 h
    obtain ⟨hvalue, hafter⟩ := Prod.mk.inj (Except.ok.inj h)
    subst hvalue hafter
    obtain ⟨hlow, hhigh⟩ := require_eq_ok_iff.1 hrange
    rw [UInt8.le_iff_toNat_le] at hlow hhigh
    have hlow : 128 ≤ b.toNat := hlow
    have hhigh : b.toNat ≤ 143 := hhigh
    have hsame : UInt8.ofNat (0x80 + (b.toNat - 0x80)) = b := by
      rw [Nat.add_sub_cancel' hlow, UInt8.ofNat_toNat]
    refine ⟨by omega, ?_⟩
    rw [header, hsame]
    exact demand_byte?_iff.1 hb
  · intro h
    obtain ⟨hn, h⟩ := h
    have htoNat : (UInt8.ofNat (0x80 + n)).toNat = 128 + n := by
      rw [UInt8.toNat_ofNat']
      omega
    refine bind_eq_ok_iff.2
      ⟨(UInt8.ofNat (0x80 + n), r'), demand_byte?_iff.2 h, ?_⟩
    refine bind_eq_ok_iff.2 ⟨(), require_eq_ok_iff.2 ⟨?_, ?_⟩, ?_⟩
    · rw [UInt8.le_iff_toNat_le, htoNat]
      exact Nat.le_add_right 128 n
    · rw [UInt8.le_iff_toNat_le, htoNat]
      show 128 + n ≤ 143
      omega
    · show Except.ok ((UInt8.ofNat (0x80 + n)).toNat - 128, r') = _
      rw [htoNat, Nat.add_sub_cancel_left]

/-- An entry is read where it stands behind its header. -/
theorem entry_iff_passes {der : Bytes} :
    entry r = .ok (der, r')
      ↔ der.length < 65536 ∧ r.Passes (frame der) r' := by
  unfold entry
  constructor
  · intro h
    obtain ⟨⟨b, r₁⟩, hb, h⟩ := bind_eq_ok_iff.1 h
    obtain ⟨_, hheader, h⟩ := bind_eq_ok_iff.1 h
    obtain ⟨⟨n, r₂⟩, hlength, h⟩ := bind_eq_ok_iff.1 h
    have hb := demand_byte?_iff.1 hb
    have hheader := require_eq_ok_iff.1 hheader
    obtain ⟨hn, hlength⟩ := demand_nat?_iff.1 hlength
    obtain ⟨hlen, hder⟩ := demand_take?_iff.1 h
    subst hlen hheader
    exact ⟨hn, (hb.trans hlength).trans hder⟩
  · intro h
    obtain ⟨hn, h⟩ := h
    obtain ⟨r₂, h, hder⟩ := passes_append_iff.1 h
    obtain ⟨r₁, hb, hlength⟩ := passes_cons_iff.1 h
    refine bind_eq_ok_iff.2 ⟨(0x59, r₁), demand_byte?_iff.2 hb, ?_⟩
    refine bind_eq_ok_iff.2 ⟨(), require_eq_ok_iff.2 rfl, ?_⟩
    refine bind_eq_ok_iff.2 ⟨(der.length, r₂), ?_, ?_⟩
    · exact demand_nat?_iff.2 ⟨hn, hlength⟩
    · exact demand_take?_iff.2 ⟨rfl, hder⟩

-- ============================================================ frames

/-- The entries that can be read one after another, up to `left` of
them, and the reader after the last or why the next one cannot be
read. -/
def frames (r : Reader) : (left : Nat) → List Bytes × Except Refusal Reader
  | 0 => ([], .ok r)
  | left + 1 =>
    match entry r with
    | .error reason => ([], .error reason)
    | .ok (der, r) => (der :: (frames r left).1, (frames r left).2)

theorem frames_of_entry {der : Bytes} (h : entry r = .ok (der, r'))
    (left : Nat) :
    frames r (left + 1)
      = (der :: (frames r' left).1, (frames r' left).2) := by
  rw [frames, h]

theorem frames_of_entry_error {reason : Refusal}
    (h : entry r = .error reason) (left : Nat) :
    frames r (left + 1) = ([], .error reason) := by
  rw [frames, h]

/-- All entries can be read exactly when they are written there. -/
theorem frames_eq_ok_iff {left : Nat} {ders : List Bytes} :
    frames r left = (ders, .ok r')
      ↔ ders.length = left ∧ (∀ der ∈ ders, der.length < 65536)
        ∧ r.Passes (ders.flatMap frame) r' := by
  induction left generalizing r ders with
  | zero =>
    constructor
    · intro h
      cases h
      exact ⟨rfl, List.forall_mem_nil _, .refl _⟩
    · intro h
      obtain ⟨hlen, -, h⟩ := h
      rw [List.length_eq_zero_iff] at hlen
      subst hlen
      rw [frames, h.unique (Passes.refl r)]
  | succ left ih =>
    constructor
    · intro h
      cases he : entry r with
      | error reason =>
        rw [frames_of_entry_error he] at h
        cases h
      | ok value =>
        obtain ⟨der, r₁⟩ := value
        rw [frames_of_entry he] at h
        obtain ⟨hlt, hfirst⟩ := entry_iff_passes.1 he
        have hlater : frames r₁ left = ((frames r₁ left).1, .ok r') := by
          rw [← (Prod.mk.inj h).2]
        obtain ⟨hlen, hall, hrest⟩ := ih.1 hlater
        rw [← (Prod.mk.inj h).1]
        refine ⟨by rw [List.length_cons, hlen], ?_, ?_⟩
        · exact List.forall_mem_cons.2 ⟨hlt, hall⟩
        · rw [List.flatMap_cons]
          exact hfirst.trans hrest
    · intro h
      obtain ⟨hlen, hall, h⟩ := h
      cases ders with
      | nil => cases hlen
      | cons der ders =>
        rw [List.flatMap_cons] at h
        obtain ⟨r₁, hfirst, hrest⟩ := passes_append_iff.1 h
        obtain ⟨hlt, hall⟩ := List.forall_mem_cons.1 hall
        have he := entry_iff_passes.2 ⟨hlt, hfirst⟩
        have hlater := ih.2 ⟨Nat.succ.inj hlen, hall, hrest⟩
        rw [frames_of_entry he, hlater]

/-- If the framing succeeds, all announced entries were framed. -/
theorem length_of_frames_ok {left : Nat}
    (h : (frames r left).2 = .ok r') : (frames r left).1.length = left :=
  (frames_eq_ok_iff.1 (Prod.ext rfl h)).1

/-- If it fails, there are fewer. -/
theorem length_of_frames_error {left : Nat} {reason : Refusal}
    (h : (frames r left).2 = .error reason) :
    (frames r left).1.length < left := by
  induction left generalizing r with
  | zero => cases h
  | succ left ih =>
    cases he : entry r with
    | error reason' =>
      rw [frames_of_entry_error he]
      exact Nat.succ_pos left
    | ok value =>
      obtain ⟨der, r₁⟩ := value
      rw [frames_of_entry he] at h ⊢
      exact Nat.succ_lt_succ (ih h)

/-- These are the entries that stand at the beginning of some bytes, up
to `left` of them: if there are fewer, no further one stands after
them. -/
structure Framed (left : Nat) (ders : List Bytes) (data : Bytes) :
    Prop where
  length_le : ders.length ≤ left
  entry_lt : ∀ der ∈ ders, der.length < 65536
  data_eq : ∃ more, data = ders.flatMap frame ++ more
    ∧ (ders.length < left → ∀ der rest, der.length < 65536 →
        more ≠ frame der ++ rest)

/-- An entry that stands next is the one that is read. -/
theorem entry_of_rest {der more : Bytes} (hlt : der.length < 65536)
    (h : r.rest = frame der ++ more) :
    ∃ r', entry r = .ok (der, r') ∧ r'.rest = more := by
  obtain ⟨r', hpasses, hmore⟩ := exists_passes h
  exact ⟨r', entry_iff_passes.2 ⟨hlt, hpasses⟩, hmore⟩

/-- Where no entry can be read, none stands. -/
theorem framed_nil_of_error {reason : Refusal}
    (h : entry r = .error reason) (left : Nat) :
    Framed left [] r.rest where
  length_le := Nat.zero_le left
  entry_lt := List.forall_mem_nil _
  data_eq := by
    refine ⟨r.rest, rfl, ?_⟩
    intro _ der rest hlt hrest
    obtain ⟨r', hentry, -⟩ := entry_of_rest hlt hrest
    rw [h] at hentry
    cases hentry

/-- An entry in front of others stands there with them. -/
theorem Framed.cons {left : Nat} {ders : List Bytes} {der more : Bytes}
    (hlt : der.length < 65536) (h : Framed left ders more) :
    Framed (left + 1) (der :: ders) (frame der ++ more) where
  length_le := Nat.succ_le_succ h.length_le
  entry_lt := List.forall_mem_cons.2 ⟨hlt, h.entry_lt⟩
  data_eq := by
    obtain ⟨rest, hmore, hlast⟩ := h.data_eq
    refine ⟨rest, ?_, ?_⟩
    · rw [List.flatMap_cons, hmore, List.append_assoc]
    · intro hlen
      exact hlast (Nat.lt_of_succ_lt_succ hlen)

/-- The entries that can be read are those that stand there, also when
the next one cannot be read. -/
theorem framed_frames (r : Reader) (left : Nat) :
    Framed left (frames r left).1 r.rest := by
  induction left generalizing r with
  | zero =>
    exact ⟨Nat.le_refl 0, List.forall_mem_nil _, r.rest, rfl, nofun⟩
  | succ left ih =>
    cases he : entry r with
    | error reason =>
      rw [frames_of_entry_error he]
      exact framed_nil_of_error he (left + 1)
    | ok value =>
      obtain ⟨der, r₁⟩ := value
      obtain ⟨hlt, hpasses⟩ := entry_iff_passes.1 he
      rw [frames_of_entry he, hpasses.rest_eq]
      exact (ih r₁).cons hlt

/-- Nothing but what is read is framed there: what stands next decides
whether there is a further entry, and which. -/
theorem Framed.frames_eq {left : Nat} {ders : List Bytes}
    (h : Framed left ders r.rest) : (frames r left).1 = ders := by
  induction left generalizing r ders with
  | zero =>
    rw [List.length_eq_zero_iff.1 (Nat.le_zero.1 h.length_le), frames]
  | succ left ih =>
    obtain ⟨more, hrest, hlast⟩ := h.data_eq
    cases ders with
    | nil =>
      cases he : entry r with
      | error reason => rw [frames_of_entry_error he]
      | ok value =>
        obtain ⟨der, r₁⟩ := value
        obtain ⟨hlt, hpasses⟩ := entry_iff_passes.1 he
        refine absurd ?_ (hlast (Nat.succ_pos left) der r₁.rest hlt)
        rw [← hpasses.rest_eq, hrest]
        rfl
    | cons der ders =>
      obtain ⟨hlt, hall⟩ := List.forall_mem_cons.1 h.entry_lt
      rw [List.flatMap_cons, List.append_assoc] at hrest
      obtain ⟨r₁, hentry, hlater⟩ := entry_of_rest hlt hrest
      have hframed : Framed left ders r₁.rest :=
        ⟨Nat.le_of_succ_le_succ h.length_le, hall, more, hlater,
          fun hlen => hlast (Nat.succ_lt_succ hlen)⟩
      rw [frames_of_entry hentry, ih hframed]

/-- Header and entries can be read exactly when a bundle is written
there. -/
theorem exists_frames_iff {ders : List Bytes} :
    (∃ n r₁, count r = .ok (n, r₁) ∧ frames r₁ n = (ders, .ok r'))
      ↔ ∃ b : Bundle, b.entries = ders ∧ r.Passes b.write r' := by
  constructor
  · intro h
    obtain ⟨n, r₁, hcount, hframes⟩ := h
    obtain ⟨hn, hheader⟩ := count_iff_passes.1 hcount
    obtain ⟨hlen, hall, hentries⟩ := frames_eq_ok_iff.1 hframes
    subst hlen
    exact ⟨⟨ders, hn, hall⟩, rfl, hheader.trans hentries⟩
  · intro h
    obtain ⟨b, hb, h⟩ := h
    subst hb
    obtain ⟨r₁, hheader, hframes⟩ := passes_append_iff.1 h
    refine ⟨b.entries.length, r₁, ?_, ?_⟩
    · exact count_iff_passes.2 ⟨b.count_le, hheader⟩
    · exact frames_eq_ok_iff.2 ⟨rfl, b.entry_lt, hframes⟩

end Bundle

end Attestation
