/-
The walk in its normal form. A walk alternates between framing an entry
of the bundle and looking into it; `chain_eq` separates the two: frame
what can be framed, confirm the root, link a row of certificates, and
only then report whether the framing failed. The row is the entries
after the first and, in full mode, the enclave's own certificate, which
is reached only if all entries were framed (`row`).

The two orders come to the same because framing asks nothing and has no
say in what is found inside an entry: a walk that cannot frame the next
entry has looked into all the ones before it, and so has the normal
form. What fails first in one of them fails first in the other.

`Unbroken` says what a good chain is, and `chain_ends_ok_iff` that a
walk succeeds on a bundle that forms one and on nothing else, whatever
bytes follow the bundle.

The other paths are those of a walk that fails, and they matter for what
it has asked by then. `chain_full_ends` covers them all. If no bundle
opens there with the root in its first entry (`Opens`), nothing is
asked; otherwise the questions are those of the row (`Asked`), with no
certificate of it passed over. `Opens` says this of the bytes, with the
entries that are framed there, so that it can be compared with what else
stands in a payload; that a walk gets to the row exactly then is
`opens_iff`.
-/
import Attestation.Proofs.Trust.Linkage

namespace Attestation

open Reader Inquiry Attestation.Bundle

namespace Walk

/-- The certificates that a walk links after the root, each with its
place in the chain: the entries that could be framed, without the first,
and, in full mode and when all `n` could be framed, the enclave's own
certificate. -/
def row (w : Walk) (certificate : Bytes) (n : Nat) (ders : List Bytes) :
    List (Bytes × Nat) :=
  ders.tail.zipIdx 1
    ++ if w.mode = .full ∧ ders.length = n then [(certificate, n)] else []

/-- Checks the first of the framed entries, if there is one. -/
def confirmFirst (w : Walk) : List Bytes → Except Refusal Unit
  | [] => .ok ()
  | der :: _ => w.confirmRoot der

variable {w : Walk} {issuer : Issuer} {certificate cabundle : Bytes}
  {calls : List Call} {key : PublicKey}

-- ==================================================== the normal form

/-- Entries after the first are linked as they are framed. -/
theorem entries_succ_eq (index : Nat) (issuer : Issuer) (r : Reader)
    (left : Nat) :
    w.entries (index + 1) issuer r left
      = (w.linkAll issuer
            ((frames r left).1.zipIdx (index + 1))).bind fun issuer =>
          ofExcept ((frames r left).2.map fun r' => (issuer, r')) := by
  induction left generalizing index issuer r with
  | zero => rfl
  | succ left ih =>
    cases he : Bundle.entry r with
    | error reason =>
      rw [entries, frames_of_entry_error he, he]
      rfl
    | ok value =>
      obtain ⟨der, r₁⟩ := value
      rw [entries, frames_of_entry he, he, List.zipIdx_cons, linkAll,
        bind_assoc]
      show (w.link (index + 1) issuer der).bind _ = _
      congr 1
      funext next
      exact ih (index + 1) next r₁

/-- From the start of a bundle, the first entry is confirmed as the
root, and the ones after it are linked. -/
theorem entries_zero_eq (issuer : Issuer) (r : Reader) (left : Nat) :
    w.entries 0 issuer r left
      = (ofExcept (w.confirmFirst (frames r left).1)).bind fun _ =>
          (w.linkAll issuer
              ((frames r left).1.tail.zipIdx 1)).bind fun issuer =>
            ofExcept ((frames r left).2.map fun r' => (issuer, r')) := by
  cases left with
  | zero => rfl
  | succ left =>
    cases he : Bundle.entry r with
    | error reason =>
      rw [entries, frames_of_entry_error he, he]
      rfl
    | ok value =>
      obtain ⟨der, r₁⟩ := value
      rw [entries, frames_of_entry he, he]
      show ((ofExcept (w.confirmRoot der)).bind fun _ =>
        done issuer).bind _ = _
      rw [bind_assoc]
      show (ofExcept (w.confirmRoot der)).bind _
        = (ofExcept (w.confirmRoot der)).bind _
      congr 1
      funext _
      exact entries_succ_eq 0 issuer r₁ left

/-- The enclave's own certificate is a row of one link, or of none. -/
theorem leaf_eq (n : Nat) (issuer : Issuer) (certificate : Bytes) :
    w.leaf n issuer certificate
      = w.linkAll issuer
          (if w.mode = .full then [(certificate, n)] else []) := by
  unfold leaf
  cases w.mode with
  | identityLinkage => rfl
  | full => exact (bind_done _).symm

/-- With all entries framed, the row ends with the enclave's own
certificate. -/
theorem row_of_length {n : Nat} {ders : List Bytes}
    (h : ders.length = n) :
    w.row certificate n ders
      = ders.tail.zipIdx 1
        ++ if w.mode = .full then [(certificate, n)] else [] := by
  rw [row]
  simp only [h, and_true]

/-- With an entry missing, the row ends with the entries. -/
theorem row_of_length_lt {n : Nat} {ders : List Bytes}
    (h : ders.length < n) :
    w.row certificate n ders = ders.tail.zipIdx 1 := by
  rw [row, if_neg fun hfull => Nat.ne_of_lt h hfull.2, List.append_nil]

/-- A walk frames, confirms the root, links a row, and reports a
failure of the framing last. -/
theorem chain_eq (w : Walk) (certificate cabundle : Bytes) :
    w.chain certificate cabundle
      = (ofExcept (Bundle.count (Reader.ofBytes cabundle))).bind
          fun (n, r) =>
            (ofExcept (w.confirmFirst (frames r n).1)).bind fun _ =>
              (w.linkAll w.anchor.issuer
                  (w.row certificate n (frames r n).1)).bind fun issuer =>
                ofExcept ((frames r n).2.map
                  fun r' => (issuer.key, r'.position)) := by
  unfold chain
  show Inquiry.bind _ _ = _
  congr 1
  funext value
  obtain ⟨n, r⟩ := value
  show (w.entries 0 w.anchor.issuer r n).bind _ = _
  rw [entries_zero_eq, bind_assoc]
  congr 1
  funext _
  rw [bind_assoc]
  cases he : (frames r n).2 with
  | error reason =>
    rw [row_of_length_lt (length_of_frames_error he)]
    rfl
  | ok r' =>
    rw [row_of_length (length_of_frames_ok he), linkAll_append, bind_assoc]
    congr 1
    funext issuer
    show (w.leaf n issuer certificate).bind _ = _
    rw [leaf_eq]
    rfl

-- ======================================================= good chains

/-- A bundle and the enclave's own certificate form an unbroken chain.
The certificates `certs` are those of the row: each follows from the
one before it, the first from the trusted root. In full mode the first
entry is the root. -/
structure Unbroken (w : Walk) (certificate : Bytes) (b : Bundle)
    (certs : List Certificate) : Prop where
  root : w.mode = .full → ∀ der, b.entries.head? = some der →
    w.anchor.OwnCertificate der
  reads : Certificate.ReadAs
    (b.entries.tail ++ if w.mode = .full then [certificate] else []) certs
  linked : w.Linked w.anchor.issuer certs

/-- An entry is confirmed as the root if it is the anchor's own
certificate. -/
theorem confirmRoot_eq_ok_iff {der : Bytes} {u : Unit} :
    w.confirmRoot der = .ok u
      ↔ (w.mode = .full → w.anchor.OwnCertificate der) := by
  unfold confirmRoot
  cases w.mode with
  | identityLinkage =>
    constructor
    · intro _ h
      cases h
    · intro _
      rfl
  | full =>
    constructor
    · intro h _
      obtain ⟨c, hread, h⟩ := bind_eq_ok_iff.1 h
      exact ⟨c, hread, require_eq_ok_iff.1 h⟩
    · intro h
      obtain ⟨c, hread, hroot⟩ := h rfl
      exact bind_eq_ok_iff.2 ⟨c, hread, require_eq_ok_iff.2 hroot⟩

/-- The first of the entries, if there is one, has to be the anchor's
own certificate. -/
theorem confirmFirst_eq_ok_iff {ders : List Bytes} {u : Unit} :
    w.confirmFirst ders = .ok u
      ↔ (w.mode = .full → ∀ der, ders.head? = some der →
          w.anchor.OwnCertificate der) := by
  cases ders with
  | nil =>
    constructor
    · intro _ _ der h
      cases h
    · intro _
      rfl
  | cons der ders =>
    show w.confirmRoot der = .ok u ↔ _
    rw [confirmRoot_eq_ok_iff]
    constructor
    · intro h hfull der' hhead
      cases hhead
      exact h hfull
    · intro h hfull
      exact h hfull der rfl

theorem map_fst_row {n : Nat} {ders : List Bytes} (h : ders.length = n) :
    (w.row certificate n ders).map Prod.fst
      = ders.tail ++ if w.mode = .full then [certificate] else [] := by
  rw [row_of_length h, List.map_append, List.zipIdx_map_fst]
  congr 1
  split <;> rfl

/-- A walk succeeds exactly on the bundles that form an unbroken chain.
It gives the key of the last certificate of the row, or the root's own
if the row is empty, and the length of the bundle; what follows the
bundle is of no concern. -/
theorem chain_ends_ok_iff {consumed : Nat} :
    (w.chain certificate cabundle).Ends calls (.ok (key, consumed))
      ↔ ∃ b : Bundle, ∃ certs, w.Unbroken certificate b certs
          ∧ (∃ more, cabundle = b.write ++ more)
          ∧ consumed = b.write.length
          ∧ key = (w.anchor.issuer.after certs).key
          ∧ calls = w.approvals w.anchor.issuer certs := by
  rw [chain_eq, ends_ofExcept_bind_ok_iff]
  constructor
  · intro h
    obtain ⟨⟨n, r⟩, hcount, h⟩ := h
    obtain ⟨_, hfirst, h⟩ := ends_ofExcept_bind_ok_iff.1 h
    obtain ⟨issuer, front, back, hlinks, h, hcalls⟩ := ends_bind_ok_iff.1 h
    obtain ⟨hback, h⟩ := ends_ofExcept_iff.1 h
    cases hframed : (frames r n).2 with
    | error reason =>
      rw [hframed] at h
      cases h
    | ok r' =>
      rw [hframed] at h
      cases h
      rw [hback, List.append_nil] at hcalls
      obtain ⟨certs, hreads, hlinked, hissuer, hasked⟩ :=
        linkAll_ends_ok_iff.1 hlinks
      rw [map_fst_row (length_of_frames_ok hframed)] at hreads
      -- nothing is missing, so the entries are those of a bundle
      have hframes : frames r n = ((frames r n).1, .ok r') := by
        rw [← hframed]
      obtain ⟨b, hb, hpasses⟩ :=
        exists_frames_iff.1 ⟨n, r, hcount, hframes⟩
      rw [← hb] at hreads hfirst
      refine ⟨b, certs, ⟨confirmFirst_eq_ok_iff.1 hfirst, hreads, hlinked⟩,
        ⟨r'.rest, hpasses.eq_append⟩, hpasses.position_eq_length, ?_, ?_⟩
      · rw [hissuer]
      · rw [hcalls, hasked]
  · intro h
    obtain ⟨b, certs, hchain, ⟨more, hbundle⟩, hconsumed, hkey, hcalls⟩ := h
    have hstart : (ofBytes cabundle).rest = b.write ++ more := hbundle
    obtain ⟨r', hpasses, -⟩ := exists_passes hstart
    obtain ⟨n, r, hcount, hframes⟩ := exists_frames_iff.2 ⟨b, rfl, hpasses⟩
    have hlength := (frames_eq_ok_iff.1 hframes).1
    refine ⟨(n, r), hcount, ?_⟩
    simp only [hframes]
    refine ends_ofExcept_bind_ok_iff.2
      ⟨(), confirmFirst_eq_ok_iff.2 hchain.root, ?_⟩
    refine ends_bind_ok_iff.2
      ⟨w.anchor.issuer.after certs, calls, [], ?_, ?_, ?_⟩
    · refine linkAll_ends_ok_iff.2
        ⟨certs, ?_, hchain.linked, rfl, hcalls⟩
      rw [map_fst_row hlength]
      exact hchain.reads
    · refine ends_ofExcept_iff.2 ⟨rfl, ?_⟩
      rw [hkey, hconsumed, ← hpasses.position_eq_length]
      rfl
    · rw [List.append_nil]

/-- A walk that succeeds is one of the bundle alone. -/
theorem chain_ends_ok_iff_alone {consumed : Nat} :
    (w.chain certificate cabundle).Ends calls (.ok (key, consumed))
      ↔ ∃ bundle more, cabundle = bundle ++ more
          ∧ consumed = bundle.length
          ∧ (w.chain certificate bundle).Ends calls
              (.ok (key, bundle.length)) := by
  rw [chain_ends_ok_iff]
  constructor
  · intro h
    obtain ⟨b, certs, hchain, ⟨more, hbundle⟩, hconsumed, h⟩ := h
    refine ⟨b.write, more, hbundle, hconsumed, ?_⟩
    exact chain_ends_ok_iff.2
      ⟨b, certs, hchain, ⟨[], (List.append_nil _).symm⟩, rfl, h⟩
  · intro h
    obtain ⟨bundle, more, hbundle, hconsumed, h⟩ := h
    obtain ⟨b, certs, hchain, ⟨rest, hrest⟩, hlength, h⟩ :=
      chain_ends_ok_iff.1 h
    refine ⟨b, certs, hchain, ⟨rest ++ more, ?_⟩, ?_, h⟩
    · rw [hbundle, hrest, List.append_assoc]
    · rw [hconsumed, hlength]

/-- A walk that uses a bundle whole does so whatever bytes follow it. -/
theorem chain_append_ends_ok_iff {bundle more : Bytes} :
    (w.chain certificate (bundle ++ more)).Ends calls
        (.ok (key, bundle.length))
      ↔ (w.chain certificate bundle).Ends calls
          (.ok (key, bundle.length)) := by
  rw [chain_ends_ok_iff_alone]
  constructor
  · intro h
    obtain ⟨bundle', more', happend, hlength, h⟩ := h
    rw [(List.append_inj happend hlength).1]
    exact h
  · intro h
    exact ⟨bundle, more, rfl, rfl, h⟩

-- ===================================================== what is asked

/-- Without full mode a walk asks nothing. -/
theorem chain_linkage_ends (hmode : w.mode = .identityLinkage)
    {outcome : Except Refusal (PublicKey × Nat)}
    (h : (w.chain certificate cabundle).Ends calls outcome) :
    calls = [] := by
  rw [chain_eq, ends_ofExcept_bind_iff] at h
  rcases h with ⟨reason, -, hcalls, -⟩ | ⟨⟨n, r⟩, -, h⟩
  · exact hcalls
  rcases ends_ofExcept_bind_iff.1 h with ⟨reason, -, hcalls, -⟩ | ⟨_, -, h⟩
  · exact hcalls
  rcases ends_bind_iff.1 h with ⟨reason, h, -⟩
    | ⟨issuer, first, later, hfirst, hlater, hcalls⟩
  · exact linkAll_linkage_ends hmode h
  · rw [hcalls, linkAll_linkage_ends hmode hfirst,
      (ends_ofExcept_iff.1 hlater).1]
    rfl

/-- A bundle of `n` entries begins here, `ders` are those of them that
can be framed, and the first of them is the root. -/
structure Opens (w : Walk) (cabundle : Bytes) (n : Nat)
    (ders : List Bytes) : Prop where
  count_le : n ≤ 15
  framed : ∃ more, cabundle = Bundle.header n ++ more ∧ Framed n ders more
  root : ∀ der, ders.head? = some der → w.anchor.OwnCertificate der

/-- In full mode a walk gets to the row of a bundle exactly if the
bundle opens: the count is read, the entries that are framed are those
that stand there, and the first of them is confirmed. -/
theorem opens_iff (hmode : w.mode = .full) {n : Nat} {ders : List Bytes} :
    w.Opens cabundle n ders
      ↔ ∃ r, Bundle.count (ofBytes cabundle) = .ok (n, r)
          ∧ (frames r n).1 = ders ∧ w.confirmFirst ders = .ok () := by
  constructor
  · intro h
    obtain ⟨hn, ⟨more, hcabundle, hframed⟩, hroot⟩ := h
    obtain ⟨r, hpasses, hmore⟩ :=
      exists_passes (r := ofBytes cabundle) hcabundle
    rw [← hmore] at hframed
    exact ⟨r, count_iff_passes.2 ⟨hn, hpasses⟩, hframed.frames_eq,
      confirmFirst_eq_ok_iff.2 fun _ => hroot⟩
  · intro h
    obtain ⟨r, hcount, hframes, hfirst⟩ := h
    obtain ⟨hn, hpasses⟩ := count_iff_passes.1 hcount
    subst hframes
    exact ⟨hn, ⟨r.rest, hpasses.eq_append, framed_frames r n⟩,
      confirmFirst_eq_ok_iff.1 hfirst hmode⟩

/-- Every path through a walk in full mode. Nothing is asked, and the
walk fails, if no bundle opens with the root there. Otherwise the walk
is that of the row, and it fails if not all entries could be framed. -/
theorem chain_full_ends (hmode : w.mode = .full)
    {outcome : Except Refusal (PublicKey × Nat)}
    (h : (w.chain certificate cabundle).Ends calls outcome) :
    (calls = [] ∧ (∃ reason, outcome = .error reason)
        ∧ ∀ n ders, ¬w.Opens cabundle n ders)
      ∨ ∃ n ders certs, w.Opens cabundle n ders
          ∧ (ders.length < n → ∃ reason, outcome = .error reason)
          ∧ w.Asked w.anchor.asIssuer (w.row certificate n ders) certs
              calls outcome := by
  rw [chain_eq, ends_ofExcept_bind_iff] at h
  rcases h with ⟨reason, hcount, hcalls, ho⟩ | ⟨⟨n, r⟩, hcount, h⟩
  · refine Or.inl ⟨hcalls, ⟨reason, ho⟩, ?_⟩
    intro n ders hopens
    obtain ⟨r, hread, -⟩ := (opens_iff hmode).1 hopens
    rw [hcount] at hread
    cases hread
  rcases ends_ofExcept_bind_iff.1 h with ⟨reason, hfirst, hcalls, ho⟩
    | ⟨_, hfirst, h⟩
  · refine Or.inl ⟨hcalls, ⟨reason, ho⟩, ?_⟩
    intro n' ders hopens
    obtain ⟨r', hread, hframes, hroot⟩ := (opens_iff hmode).1 hopens
    cases hcount.symm.trans hread
    rw [← hframes, hfirst] at hroot
    cases hroot
  have hopens : w.Opens cabundle n (frames r n).1 :=
    (opens_iff hmode).2 ⟨r, hcount, rfl, hfirst⟩
  rcases ends_bind_iff.1 h with ⟨reason, h, ho⟩
    | ⟨issuer, first, later, hfirst, hlater, hcalls⟩
  · obtain ⟨certs, hasked⟩ := asked_of_linkAll hmode h
    refine Or.inr ⟨n, _, certs, hopens, fun _ => ⟨reason, ho⟩, ?_⟩
    refine hasked.transfer ?_
    intro reason' he
    rw [ho, Except.error.inj he]
  · obtain ⟨hnil, ho⟩ := ends_ofExcept_iff.1 hlater
    obtain ⟨certs, hasked⟩ := asked_of_linkAll hmode hfirst
    refine Or.inr ⟨n, _, certs, hopens, ?_, ?_⟩
    · -- fewer entries than announced: the framing gave the reason
      intro hlen
      cases hframed : (frames r n).2 with
      | error reason => exact ⟨reason, by rw [ho, hframed]; rfl⟩
      | ok r' =>
        exact absurd (length_of_frames_ok hframed) (Nat.ne_of_lt hlen)
    · rw [hcalls, hnil, List.append_nil]
      refine hasked.transfer ?_
      intro reason' he
      cases he

end Walk

end Attestation
