/-
Chains with one certificate that does not belong. A walk takes the
entries of a bundle into the chain one after another and then links the
enclave's own certificate. So in a chain that a walk accepts, what
happens at a place depends on the places before it alone: the walk comes
there with the name of the certificate before (`nameBefore_of_takeIn`),
and a certificate of another issuer is refused at once, before its
validity and its signature.

`BreaksAt` says that a chain is refused as broken at a place, with no
other questions than the first of some calls. The calls are those of the
good chain, so what is asked up to the place is what was asked there
before; the refusal adds nothing to that, since names are compared
before anything is asked.

`trace_chain_of_other_issuer` says where a chain breaks when one
certificate of a good one is replaced: an entry, the enclave's own
certificate, or the root. The root is compared with the anchor's name
and key, and in full mode only, and the enclave's own certificate is
looked at in full mode only; an entry after the first breaks the chain
in either mode.
-/
import Attestation.Proofs.Document.Modes
import Attestation.Proofs.Trust.Entries

namespace Attestation

open Reader Inquiry Attestation.Bundle

/-- The bundle up to a place, with another entry in that place. -/
def Bundle.withEntry (b : Bundle) (i : Nat) (der : Bytes) : Bytes :=
  header b.entries.length ++ (b.entries.take i ++ [der]).flatMap frame

namespace Walk

/-- The name that the issuer of the certificate at a place in the chain
must have: the root's own for the first two places, and else the subject
of the entry before. -/
def nameBefore (w : Walk) (entries : List Bytes) :
    (i : Nat) → Option Digest256
  | 0 | 1 => some w.anchor.identity
  | i + 2 => do
    let der ← entries[i + 1]?
    let c ← (Certificate.read der).toOption
    return c.subjectHash

/-- The walk refuses the chain as broken at a place. It has asked no
other questions than the first of `calls`, with the same answers. -/
def BreaksAt (w : Walk) (answer : Nat → Query → Bool) (count : Nat)
    (calls : List Call) (certificate cabundle : Bytes) (index : Nat) :
    Prop :=
  ∃ asked, asked <+: calls
    ∧ (w.chain certificate cabundle).trace answer count
      = (asked, .error (.chainBroken index))

variable {w : Walk} {index : Nat} {issuer issuer' : Issuer}
  {der certificate cabundle : Bytes} {c : Certificate}
  {ders : List Bytes} {b : Bundle} {calls : List Call}
  {answer : Nat → Query → Bool} {count : Nat}

-- ============================================== names along the walk

/-- Past the first entry, the name that the walk has is the one of the
entry before. -/
theorem nameBefore_add_two {entries : List Bytes} {i : Nat}
    (hget : entries[i + 1]? = some der)
    (hread : Certificate.read der = .ok c) :
    w.nameBefore entries (i + 2) = some c.subjectHash := by
  rw [nameBefore, hget]
  show ((Certificate.read der).toOption >>= _) = _
  rw [hread]
  rfl

/-- A walk that has taken entries in goes on with the name that the next
certificate must have as its issuer's. -/
theorem nameBefore_of_takeIn
    (h : (w.takeIn 0 w.anchor.issuer ders).Ends calls (.ok issuer))
    (more : List Bytes) :
    w.nameBefore (ders ++ more) ders.length = some issuer.identity := by
  rcases List.eq_nil_or_concat' ders with rfl | ⟨before, der, rfl⟩
  · rw [Except.ok.inj (ends_done_iff.1 h).2]
    rfl
  · rw [takeIn_append, Nat.zero_add] at h
    obtain ⟨next, first, later, hbefore, hlast, -⟩ := ends_bind_ok_iff.1 h
    rw [takeIn_singleton] at hlast
    cases before with
    | nil =>
      -- the first entry stands for itself
      obtain ⟨_, -, hlast⟩ := ends_ofExcept_bind_ok_iff.1 hlast
      rw [Except.ok.inj (ends_done_iff.1 hlast).2,
        Except.ok.inj (ends_done_iff.1 hbefore).2]
      rfl
    | cons root before =>
      obtain ⟨c, hread, -, -, hissuer, -⟩ := link_ends_ok_iff.1 hlast
      have hget : (root :: before ++ [der] ++ more)[before.length + 1]?
          = some der := by
        simp
      rw [List.length_append, List.length_cons, List.length_singleton,
        nameBefore_add_two hget hread, hissuer]
      rfl

-- ============================================= certificates refused

/-- A certificate of another issuer is not linked, and nothing is asked
about it. -/
theorem link_of_other_issuer (hread : Certificate.read der = .ok c)
    (hother : c.issuerHash ≠ issuer.identity) :
    (w.link index issuer der).Ends [] (.error (.chainBroken index)) := by
  have hexamine : w.examine index issuer der
      = .error (.chainBroken index) := by
    rw [examine, hread]
    show (require (c.issuerHash = issuer.identity) _ >>= _) = _
    rw [require_bind, if_neg hother]
  rw [link_eq, hexamine]
  exact .refused _

/-- In full mode another certificate does not stand for the root. -/
theorem extend_zero_of_other_root (hmode : w.mode = .full)
    (hread : Certificate.read der = .ok c)
    (hother : c.publicKey ≠ w.anchor.publicKey
      ∨ c.subjectHash ≠ w.anchor.identity) :
    (w.extend 0 issuer der).Ends [] (.error (.chainBroken 0)) := by
  have hconfirm : w.confirmRoot der = .error (.chainBroken 0) := by
    have hnot : ¬(c.subject.key = w.anchor.publicKey
        ∧ c.subject.identity = w.anchor.identity) := by
      rintro ⟨hkey, hname⟩
      exact hother.elim (fun h => h hkey) fun h => h hname
    rw [confirmRoot, hmode]
    show (Certificate.read der >>= _) = _
    rw [hread]
    show require _ _ = _
    rw [require, if_neg hnot]
  refine Ends.bind_error ?_
  show (ofExcept (w.confirmRoot der)).Ends _ _
  rw [hconfirm]
  exact .refused _

/-- If an accepted chain gets another entry in some place, which would
be refused there after the entries before it, it breaks in that place,
whatever follows. -/
theorem chain_withEntry_ends
    (htaken : (w.takeIn 0 w.anchor.issuer b.entries).Ends calls
      (.ok issuer))
    {i : Nat} (hi : i < b.entries.length) (hfits : der.length < 65536)
    (hrefused : ∀ before : Issuer,
      w.nameBefore b.entries i = some before.identity →
        (w.extend i before der).Ends [] (.error (.chainBroken i)))
    (certificate more : Bytes) :
    ∃ asked, asked <+: calls
      ∧ (w.chain certificate (b.withEntry i der ++ more)).Ends asked
          (.error (.chainBroken i)) := by
  have hlength : (b.entries.take i).length = i :=
    List.length_take_of_le (Nat.le_of_lt hi)
  rw [← List.take_append_drop i b.entries, takeIn_append] at htaken
  obtain ⟨before, first, later, hbefore, -, hcalls⟩ :=
    ends_bind_ok_iff.1 htaken
  have hname := nameBefore_of_takeIn hbefore (b.entries.drop i)
  rw [List.take_append_drop, hlength] at hname
  let start : Beginning := {
    count := b.entries.length
    entries := b.entries.take i ++ [der]
    count_le := b.count_le
    length_le := by
      rw [List.length_append, hlength, List.length_singleton]
      exact hi
    entry_lt := List.forall_mem_append.2
      ⟨fun entry h => b.entry_lt entry (List.mem_of_mem_take h),
        List.forall_mem_singleton.2 hfits⟩ }
  have hentry : w.RefusesEntry start first (.chainBroken i) := by
    refine ⟨b.entries.take i, der, before, first, [], rfl, hbefore, ?_,
      (List.append_nil first).symm⟩
    rw [hlength]
    exact hrefused before hname
  exact ⟨first, ⟨later, hcalls.symm⟩,
    chain_of_refusesEntry hentry certificate more⟩

-- ================================================== broken chains

/-- A path that is refused as broken is what the judge sees who gives
the answers of the good chain. -/
theorem BreaksAt.of_ends {asked : List Call}
    (hends : (w.chain certificate cabundle).Ends asked
      (.error (.chainBroken index)))
    (hasked : asked <+: calls) (hanswered : Answered answer count calls) :
    w.BreaksAt answer count calls certificate cabundle index := by
  obtain ⟨later, rfl⟩ := hasked
  exact ⟨asked, ⟨later, rfl⟩,
    trace_eq_iff.2 ⟨hends, (answered_append_iff.1 hanswered).1⟩⟩

/-- A chain with one certificate of another issuer breaks where that
certificate stands. Let a walk succeed on a bundle, which is the one
that the bytes begin with. If an entry after the first is replaced by a
certificate that does not name the one before as its issuer, the walk
refuses at the place of that entry, whatever follows it and whatever the
enclave's own certificate is. In full mode, if the enclave's own
certificate is replaced by such a one, the walk refuses behind the last
entry; and if the first entry is replaced by a certificate with another
key or name than the root's, it refuses at the first place. -/
theorem trace_chain_of_other_issuer {key : PublicKey} {consumed : Nat}
    (h : (w.chain certificate cabundle).trace answer count
      = (calls, .ok (key, consumed))) :
    (∃ b : Bundle, ∃ more, cabundle = b.write ++ more)
      ∧ ∀ (b : Bundle) (more : Bytes), cabundle = b.write ++ more →
        (∀ i der c, 1 ≤ i → i < b.entries.length → der.length < 65536 →
            Certificate.read der = .ok c →
            w.nameBefore b.entries i ≠ some c.issuerHash →
              ∀ certificate' more', w.BreaksAt answer count calls
                certificate' (b.withEntry i der ++ more') i)
          ∧ (w.mode = .full → ∀ der c, Certificate.read der = .ok c →
            w.nameBefore b.entries b.entries.length
                ≠ some c.issuerHash →
              w.BreaksAt answer count calls der cabundle
                b.entries.length)
          ∧ (w.mode = .full → b.entries ≠ [] → ∀ der c,
            der.length < 65536 → Certificate.read der = .ok c →
            (c.publicKey ≠ w.anchor.publicKey
                ∨ c.subjectHash ≠ w.anchor.identity) →
              ∀ certificate' more', w.BreaksAt answer count calls
                certificate' (b.withEntry 0 der ++ more') 0) := by
  obtain ⟨hends, hanswered⟩ := trace_eq_iff.1 h
  constructor
  · obtain ⟨b, -, -, hframed, -⟩ := chain_ends_ok_iff.1 hends
    exact ⟨b, hframed⟩
  intro b more hcabundle
  rw [hcabundle] at hends
  obtain ⟨issuer, first, later, hcalls, htaken⟩ :=
    exists_takeIn_of_chain hends
  have hfirst : first <+: calls := ⟨later, hcalls.symm⟩
  refine ⟨?_, ?_, ?_⟩
  · intro i der c hpos hi hfits hread hother certificate' more'
    obtain ⟨i, rfl⟩ := Nat.exists_eq_add_of_le' hpos
    obtain ⟨asked, hasked, hbroken⟩ := chain_withEntry_ends htaken hi hfits
      (fun before hname => link_of_other_issuer hread fun hsame =>
        hother (by rw [hname, hsame])) certificate' more'
    exact .of_ends hbroken (hasked.trans hfirst) hanswered
  · intro hmode der c hread hother
    have hname := nameBefore_of_takeIn htaken []
    rw [List.append_nil] at hname
    have hown : w.RefusesOwn der b first
        (.chainBroken b.entries.length) := by
      refine ⟨issuer, first, [], htaken, ?_, (List.append_nil first).symm⟩
      rw [leaf, hmode]
      exact link_of_other_issuer hread fun hsame =>
        hother (by rw [hname, hsame])
    rw [hcabundle]
    exact .of_ends (chain_of_refusesOwn hown more) hfirst hanswered
  · intro hmode hne der c hfits hread hother certificate' more'
    obtain ⟨asked, hasked, hbroken⟩ := chain_withEntry_ends htaken
      (List.length_pos_iff.2 hne) hfits
      (fun before _ => extend_zero_of_other_root hmode hread hother)
      certificate' more'
    exact .of_ends hbroken (hasked.trans hfirst) hanswered

/-- The small chain with another certificate in each of its three
places: the enclave's own for the entry after the root, the root for the
enclave's own, and that entry for the root. -/
theorem trace_chain_of_other_issuer_smallChain :
    (SmallChain.walk.chain SmallChain.payload.certificate
          SmallChain.payload.bundle).trace (fun _ _ => true) 0
        = (SmallChain.calls, .ok (SmallChain.own.publicKey,
            SmallChain.payload.bundle.length))
      ∧ (∀ certificate' more', SmallChain.walk.BreaksAt (fun _ _ => true) 0
          SmallChain.calls certificate'
          (SmallChain.bundle.withEntry 1 SmallChain.own.parts.write
            ++ more') 1)
      ∧ SmallChain.walk.BreaksAt (fun _ _ => true) 0 SmallChain.calls
          SmallChain.root.parts.write SmallChain.payload.bundle 2
      ∧ ∀ certificate' more', SmallChain.walk.BreaksAt (fun _ _ => true) 0
          SmallChain.calls certificate'
          (SmallChain.bundle.withEntry 0 SmallChain.inner.parts.write
            ++ more') 0 := by
  have hwalk : (SmallChain.walk.chain SmallChain.payload.certificate
      SmallChain.payload.bundle).trace (fun _ _ => true) 0
        = (SmallChain.calls, .ok (SmallChain.own.publicKey,
            SmallChain.payload.bundle.length)) :=
    trace_eq_iff.2 ⟨SmallChain.chain_ends rfl rfl rfl, rfl, rfl, trivial⟩
  obtain ⟨hentry, hown, hroot⟩ := (trace_chain_of_other_issuer hwalk).2
    SmallChain.bundle [] (List.append_nil _).symm
  have hfits (p : Certificate.Profile) : p.parts.write.length < 65536 := by
    have hissuer := p.issuer_fits
    have hsubject := p.subject_fits
    rw [p.length_write]
    omega
  -- the names i and o are not the root's, nor is the root's i
  have hinner : SmallChain.walk.nameBefore SmallChain.bundle.entries 2
      = some SmallChain.inner.certificate.subjectHash :=
    nameBefore_add_two rfl SmallChain.inner.read_parts
  refine ⟨hwalk, ?_, ?_, ?_⟩
  · refine hentry 1 _ _ (by decide) (by decide) (hfits SmallChain.own)
      SmallChain.own.read_parts ?_
    decide +kernel
  · refine hown rfl _ _ SmallChain.root.read_parts ?_
    show SmallChain.walk.nameBefore SmallChain.bundle.entries 2 ≠ _
    rw [hinner]
    decide +kernel
  · refine hroot rfl (List.cons_ne_nil _ _) _ _ (hfits SmallChain.inner)
      SmallChain.inner.read_parts (Or.inl ?_)
    decide +kernel

end Walk

end Attestation
