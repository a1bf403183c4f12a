/-
Where a payload ends. A payload that is read says of every byte before
its last that more must come, and of its last that nothing may. So a
payload that is cut off is refused because data is missing
(`trace_read_of_cut`), one that goes on is refused because there is too
much (`trace_read_append`), and no accepted payload begins another.

A cut falls into one field, and there is a lemma for each field: bytes
that end inside what the field is written as cannot be read as it, and
the reason is that data is missing. The cut is followed from field to
field by how bytes that end inside a row of words end inside one of them
and have passed over the others; no place is ever numbered.

Two places differ from the others. Bytes that end right before the
bundle are refused because there is no bundle at all
(`read_beforeBundle`). And the opening of the registers is looked at as
a whole, so that bytes that end inside it are taken for another field
(`read_of_cutsRegisters`). Everywhere else it is missing data, wherever
the cut falls, and also inside the bundle, where the certificates in
front of the cut have been asked about by then.

That more than a payload is refused needs the converse, that a payload
ends at one place: two ways to write the fields before the bundle end
alike, and so do two bundles and two rows of fields behind it. The first
of these lies with the layout of the payload; the others are here, and
put together they say that a payload which is read is not the beginning
of another (`Payload.write_append_inj`).
-/
import Attestation.Proofs.Bytes.Shortfall
import Attestation.Proofs.Document.Modes
import Attestation.Proofs.Trust.Entries

namespace Attestation

open Reader Inquiry Attestation.Bundle

variable {r r' : Reader}

-- ========================================================= cut fields

/-- The opening of a field that is cut off counts as missing data. -/
theorem expect_of_endsIn {f : Field} (h : r.EndsIn f.spelling) :
    FallsShort (Statement.expect f r) := by
  have hbegins := List.isPrefixOf_iff_prefix.2 h.rest_prefix
  rw [Statement.expect, f.opening_eq, if_pos ⟨h.rest_length_lt, hbegins⟩]
  exact .demand (pass?_of_endsIn h)

/-- A name that is cut off counts as missing data. -/
theorem readModuleId_of_endsIn {name : String}
    (hfits : (Utf8.encode name.toList).length < 256)
    (h : r.EndsIn (moduleIdBytes name)) :
    FallsShort (Statement.readModuleId r) := by
  rw [moduleIdBytes, List.append_assoc] at h
  rcases endsIn_append_iff.1 h with h | ⟨r₁, hopening, h⟩
  · exact .bind (expect_of_endsIn h)
  refine .after (expect_iff_passes.2 hopening) ?_
  rcases endsIn_append_iff.1 h with h | ⟨r₂, hlength, h⟩
  · exact .bind (.demand (nat?_of_endsIn h))
  refine .after (demand_nat?_iff.2 ⟨hfits, hlength⟩) ?_
  exact .bind (.demand (take?_of_endsIn h))

/-- A time that is cut off counts as missing data. -/
theorem readTimestamp_of_endsIn {t : UInt64}
    (h : r.EndsIn (timestampBytes t)) :
    FallsShort (Statement.readTimestamp r) := by
  rcases endsIn_append_iff.1 h with h | ⟨r₁, hopening, h⟩
  · exact .bind (expect_of_endsIn h)
  refine .after (expect_iff_passes.2 hopening) ?_
  exact .bind (.demand (nat?_of_endsIn h))

/-- Registers that are cut off after their opening. -/
theorem readPcrs_of_endsIn {p : Registers}
    (hopening : r.Passes Field.pcrs.spelling r')
    (h : r'.EndsIn (p.first.toList ++ Registers.spread p.later)) :
    FallsShort (Statement.readPcrs r) := by
  have hbegins : Field.pcrs.spelling.isPrefixOf r.rest = true :=
    List.isPrefixOf_iff_prefix.2 ⟨r'.rest, hopening.rest_eq.symm⟩
  have hshort : ¬Pcrs.fieldLength ≤ r.rest.length := by
    have hlt := h.rest_length_lt
    have hwhole := p.length_write
    rw [Registers.write, List.append_assoc, List.length_append] at hwhole
    rw [hopening.rest_eq, List.length_append]
    omega
  refine .bind ⟨Pcrs.fieldLength, r.rest.length, ?_⟩
  rw [Pcrs.read, Field.opening_eq, if_pos hbegins, dif_neg hshort]

/-- A certificate that is cut off counts as missing data. -/
theorem readCertificate_of_endsIn {der : Bytes} (hfits : der.length < 65536)
    (h : r.EndsIn (certificateBytes der)) :
    FallsShort (Statement.readCertificate r) := by
  rw [certificateBytes, List.append_assoc] at h
  rcases endsIn_append_iff.1 h with h | ⟨r₁, hopening, h⟩
  · exact .bind (expect_of_endsIn h)
  refine .after (expect_iff_passes.2 hopening) ?_
  rcases endsIn_append_iff.1 h with h | ⟨r₂, hlength, h⟩
  · exact .bind (.demand (nat?_of_endsIn h))
  refine .after (demand_nat?_iff.2 ⟨hfits, hlength⟩) ?_
  exact .demand (take?_of_endsIn h)

/-- A cut in the length of a byte string falls before its header or
after it. -/
theorem cut_of_form {f : Field} {form : ByteString.Form} {n : Nat}
    (h : r.EndsIn (form.write n)) :
    r.rest = [] ∨ ∃ header r₁, r.Passes [header] r₁ ∧ header ≠ 0xf6
      ∧ FallsShort (lengthAfter f header r₁) := by
  cases form with
  | inline => exact Or.inl (endsIn_singleton_iff.1 h)
  | one =>
    rcases endsIn_cons_iff.1 h with h | ⟨r₁, hheader, h⟩
    · exact Or.inl h
    · refine Or.inr ⟨0x58, r₁, hheader, by decide, ?_⟩
      exact .demand (nat?_of_endsIn h)
  | two =>
    rcases endsIn_cons_iff.1 h with h | ⟨r₁, hheader, h⟩
    · exact Or.inl h
    · refine Or.inr ⟨0x59, r₁, hheader, by decide, ?_⟩
      exact .demand (nat?_of_endsIn h)

/-- An optional value that is cut off counts as missing data, in each of
its forms. -/
theorem readOptional_of_endsIn {f : Field} {v? : Option ByteString}
    (h : r.EndsIn (optionalBytes f v?)) :
    FallsShort (Statement.readOptional f r) := by
  rw [readOptional_eq]
  cases v? with
  | none =>
    rcases endsIn_append_iff.1 h with h | ⟨r₁, hopening, h⟩
    · exact .bind (expect_of_endsIn h)
    refine .after (expect_iff_passes.2 hopening) (.bind (.demand ?_))
    exact byte?_of_rest_nil (endsIn_singleton_iff.1 h)
  | some v =>
    rcases endsIn_append_iff.1 h with h | ⟨r₁, hopening, h⟩
    · exact .bind (expect_of_endsIn h)
    refine .after (expect_iff_passes.2 hopening) ?_
    rcases endsIn_append_iff.1 h with h | ⟨r₃, hform, h⟩
    · rcases cut_of_form (f := f) h with hnil
        | ⟨header, r₂, hheader, hnull, hshort⟩
      · exact .bind (.demand (byte?_of_rest_nil hnil))
      refine .after (demand_byte?_iff.2 hheader) ?_
      simp only [if_neg hnull]
      exact .bind hshort
    · obtain ⟨header, r₂, hheader, hnull, hlength⟩ :=
        lengthAfter_of_form (f := f) v.fits hform
      refine .after (demand_byte?_iff.2 hheader) ?_
      simp only [if_neg hnull]
      refine .after hlength ?_
      exact .bind (.demand (take?_of_endsIn h))

-- ====================================================== a cut bundle

/-- An entry that is cut off counts as missing data. -/
theorem Bundle.entry_of_endsIn {der : Bytes} (hlt : der.length < 65536)
    (h : r.EndsIn (frame der)) : FallsShort (Bundle.entry r) := by
  rw [frame, List.cons_append] at h
  rcases endsIn_cons_iff.1 h with h | ⟨r₁, hheader, h⟩
  · exact .bind (.demand (byte?_of_rest_nil h))
  refine .after (demand_byte?_iff.2 hheader) ?_
  refine .require rfl ?_
  rcases endsIn_append_iff.1 h with h | ⟨r₂, hlength, h⟩
  · exact .bind (.demand (nat?_of_endsIn h))
  refine .after (demand_nat?_iff.2 ⟨hlt, hlength⟩) ?_
  exact .demand (take?_of_endsIn h)

/-- A cut in a row of entries falls into one of them. -/
theorem Bundle.cut_of_frames {ders : List Bytes}
    (h : r.EndsIn (ders.flatMap frame)) :
    ∃ before der later r', ders = before ++ der :: later
      ∧ r.Passes (before.flatMap frame) r' ∧ r'.EndsIn (frame der) := by
  induction ders generalizing r with
  | nil =>
    have hlt := h.rest_length_lt
    cases hlt
  | cons der ders ih =>
    rw [List.flatMap_cons] at h
    rcases endsIn_append_iff.1 h with h | ⟨r₁, hfirst, h⟩
    · exact ⟨[], der, ders, r, rfl, .refl r, h⟩
    · obtain ⟨before, der', later, r', hders, hpasses, hcut⟩ := ih h
      refine ⟨der :: before, der', later, r', ?_, ?_, hcut⟩
      · rw [hders, List.cons_append]
      · rw [List.flatMap_cons]
        exact hfirst.trans hpasses

namespace Walk

variable {w : Walk} {certificate cabundle : Bytes} {calls : List Call}
  {value : PublicKey × Nat}

/-- A walk over a bundle that is cut off after its header links the
entries before the cut as it did, and then misses data. -/
theorem chain_of_endsIn {b : Bundle}
    (hwhole : (w.chain certificate b.write).Ends calls (.ok value))
    (h : (ofBytes cabundle).EndsIn b.write) (hstart : cabundle ≠ []) :
    ∃ first later outcome, calls = first ++ later
      ∧ (w.chain certificate cabundle).Ends first outcome
      ∧ FallsShort outcome := by
  rcases endsIn_append_iff.1 h with h | ⟨r₁, hheader, h⟩
  · exact absurd (endsIn_singleton_iff.1 h) hstart
  obtain ⟨before, der, after, r₂, hentries, hbefore, hcut⟩ :=
    cut_of_frames h
  have hcount : b.entries.length = before.length + (after.length + 1) := by
    rw [hentries, List.length_append, List.length_cons]
  have hlt : ∀ der ∈ before, der.length < 65536 := by
    intro der hder
    exact b.entry_lt der (by rw [hentries]; exact List.mem_append_left _ hder)
  have hder : der.length < 65536 := by
    refine b.entry_lt der ?_
    rw [hentries]
    exact List.mem_append_right before (List.mem_cons_self ..)
  -- the whole walk takes the entries before the cut in first
  rw [← List.append_nil b.write] at hwhole
  obtain ⟨_, taken, rest, hcalls, htaken⟩ := exists_takeIn_of_chain hwhole
  rw [hentries, takeIn_append] at htaken
  obtain ⟨issuer, first, later, htaken, -, htakenCalls⟩ :=
    ends_bind_ok_iff.1 htaken
  -- the walk over the cut bundle does so too, and then cannot go on
  obtain ⟨consumed, length, hshort⟩ := entry_of_endsIn hder hcut
  refine ⟨first, later ++ rest,
    .error (.trailingOrMissingData consumed length), ?_, ?_, consumed, length,
    rfl⟩
  · rw [hcalls, htakenCalls, List.append_assoc]
  refine ends_ofExcept_bind_iff.2 (Or.inr ⟨(b.entries.length, r₁),
    count_iff_passes.2 ⟨b.count_le, hheader⟩, ?_⟩)
  simp only [hcount, bind_eq, entries_of_passes hlt hbefore, bind_assoc]
  have hstop : (w.entries (0 + before.length) issuer r₂
      (after.length + 1)).Ends []
        (.error (.trailingOrMissingData consumed length)) := by
    refine ends_ofExcept_bind_iff.2 (Or.inl ⟨_, hshort, rfl, rfl⟩)
  rw [← List.append_nil first]
  exact htaken.bind_ok hstop.bind_error

end Walk

-- ========================================================= a cut payload

/-- The payload up to the registers. -/
def FrontParts.beforeRegisters (p : FrontParts) : Bytes :=
  mapHeaderBytes ++ moduleIdBytes p.moduleId ++ Field.digest.spelling
    ++ timestampBytes p.timestamp

namespace Payload

/-- The payload up to the header of the bundle. -/
def beforeBundle (p : Payload) : Bytes :=
  p.toFrontParts.write ++ Field.cabundle.spelling

/-- The bytes are the payload up to a place in the opening of its
registers. -/
def CutsRegisters (p : Payload) (cut : Bytes) : Prop :=
  ∃ part, part <+: Field.pcrs.spelling ∧ part ≠ Field.pcrs.spelling
    ∧ cut = p.beforeRegisters ++ part

end Payload

/-- The small chain's payload is read by a judge that says yes to
everything. -/
theorem SmallChain.trace_read :
    (Statement.read walk .any payload.write).trace (fun _ _ => true) 0
      = (calls, .ok (payload.statement own.publicKey)) := by
  have hchain := chain_ends (w := walk) rfl rfl rfl
  have hread : (Statement.read walk .any payload.write).Ends calls
      (.ok (payload.statement own.publicKey)) :=
    Statement.read_ends_ok_iff.2
      ⟨payload, own.publicKey, rfl, rfl, hchain, rfl⟩
  exact trace_eq_iff.2 ⟨hread, rfl, rfl, trivial⟩

namespace Statement

variable {w : Walk} {accepts : AgeRule} {calls : List Call}
  {certificate : Bytes} {key : PublicKey}

/-- A cut before the bundle, outside the opening of the registers. -/
theorem readFront_of_endsIn {p : FrontParts} {now : UInt64}
    (haccepts : accepts p.timestamp now = true) (h : r.EndsIn p.write)
    (hstart : r.rest ≠ [])
    (hopening : ∀ r', r.Passes p.beforeRegisters r' →
      ¬r'.EndsIn Field.pcrs.spelling) :
    FallsShort (readFront accepts now r) := by
  rw [FrontParts.beforeRegisters] at hopening
  simp only [FrontParts.write, List.append_assoc] at h
  rcases endsIn_append_iff.1 h with h | ⟨r₁, hheader, h⟩
  · exact absurd (endsIn_singleton_iff.1 h) hstart
  refine .after (demand_pass?_iff.2 hheader) ?_
  rcases endsIn_append_iff.1 h with h | ⟨r₂, hmodule, h⟩
  · exact .bind (readModuleId_of_endsIn p.moduleId_fits h)
  refine .after (readModuleId_iff_passes.2 ⟨p.moduleId_fits, hmodule⟩) ?_
  rcases endsIn_append_iff.1 h with h | ⟨r₃, hdigest, h⟩
  · exact .bind (expect_of_endsIn h)
  refine .after (expect_iff_passes.2 hdigest) ?_
  rcases endsIn_append_iff.1 h with h | ⟨r₄, htime, h⟩
  · exact .bind (readTimestamp_of_endsIn h)
  refine .after (readTimestamp_iff_passes.2 htime) ?_
  refine .require haccepts ?_
  rcases endsIn_append_iff.1 h with h | ⟨r₅, hpcrs, h⟩
  · rw [Registers.write, List.append_assoc] at h
    rcases endsIn_append_iff.1 h with h | ⟨r₅, hpcrs, h⟩
    · exact absurd h
        (hopening r₄ (((hheader.trans hmodule).trans hdigest).trans htime))
    · exact .bind (readPcrs_of_endsIn hpcrs h)
  refine .after (readPcrs_iff_passes.2 ⟨p.registers, rfl, hpcrs⟩) ?_
  exact .bind (readCertificate_of_endsIn p.certificate_fits h)

/-- A cut in the bundle, but not right before its header. -/
theorem readBundle_of_endsIn {b : Bundle}
    (hchain : (w.chain certificate b.write).Ends calls
      (.ok (key, b.write.length)))
    (h : r.EndsIn (Field.cabundle.spelling ++ b.write))
    (hstart : ∀ r', r.Passes Field.cabundle.spelling r' → r'.rest ≠ []) :
    ∃ first later outcome, calls = first ++ later
      ∧ (readBundle w certificate r).Ends first outcome
      ∧ FallsShort outcome := by
  rcases endsIn_append_iff.1 h with h | ⟨r₁, hopening, h⟩
  · obtain ⟨consumed, length, hshort⟩ := expect_of_endsIn h
    exact ⟨[], calls, _, rfl,
      ends_ofExcept_bind_iff.2 (Or.inl ⟨_, hshort, rfl, rfl⟩),
      consumed, length, rfl⟩
  · obtain ⟨first, later, outcome, hcalls, hends, consumed, length, ho⟩ :=
      Walk.chain_of_endsIn hchain h (hstart r₁ hopening)
    refine ⟨first, later, _, hcalls, ?_, consumed, length, rfl⟩
    refine ends_ofExcept_bind_iff.2
      (Or.inr ⟨r₁, expect_iff_passes.2 hopening, ?_⟩)
    rw [ho] at hends
    exact hends.bind_error

/-- Bytes that end right before the header of the bundle. -/
theorem readBundle_of_rest_nil
    (hopening : r.Passes Field.cabundle.spelling r') (h : r'.rest = []) :
    (readBundle w certificate r).Ends []
      (.error (.malformedBundle .missing)) := by
  refine ends_ofExcept_bind_iff.2
    (Or.inr ⟨r', expect_iff_passes.2 hopening, ?_⟩)
  refine Ends.bind_error (ends_ofExcept_bind_iff.2 (Or.inl ⟨_, ?_, rfl, rfl⟩))
  rw [h]
  rfl

/-- A cut after the bundle. -/
theorem readBack_of_endsIn {p : BackParts} (h : r.EndsIn p.write) :
    FallsShort (readBack r) := by
  rw [BackParts.write, List.append_assoc] at h
  rcases endsIn_append_iff.1 h with h | ⟨r₁, hkey, h⟩
  · exact .bind (readOptional_of_endsIn h)
  refine .after (readOptional_iff_passes.2 ⟨_, rfl, hkey⟩) ?_
  rcases endsIn_append_iff.1 h with h | ⟨r₂, hdata, h⟩
  · exact .bind (readOptional_of_endsIn h)
  refine .after (readOptional_iff_passes.2 ⟨_, rfl, hdata⟩) ?_
  exact .bind (readOptional_of_endsIn h)

/-- A bundle that a walk uses whole is a written one. -/
theorem exists_bundle_of_chain {bundle : Bytes}
    (h : (w.chain certificate bundle).Ends calls
      (.ok (key, bundle.length))) : ∃ b : Bundle, bundle = b.write := by
  obtain ⟨b, -, -, ⟨more, hmore⟩, hlength, -, -⟩ := Walk.chain_ends_ok_iff.1 h
  have hnil : more = [] := by
    rw [hmore, List.length_append] at hlength
    exact List.length_eq_zero_iff.1 (by omega)
  exact ⟨b, by rw [hmore, hnil, List.append_nil]⟩

/-- A payload that is cut off behind the map header misses data, except
at the two places named. -/
theorem read_of_endsIn {p : Payload} {cut : Bytes}
    (haccepts : accepts p.timestamp w.now = true)
    (hchain : (w.chain p.certificate p.bundle).Ends calls
      (.ok (key, p.bundle.length)))
    (h : (ofBytes cut).EndsIn p.write) (hstart : cut ≠ [])
    (hbundle : cut ≠ p.beforeBundle) (hopening : ¬p.CutsRegisters cut) :
    ∃ first later outcome, calls = first ++ later
      ∧ (read w accepts cut).Ends first outcome ∧ FallsShort outcome := by
  obtain ⟨b, hwritten⟩ := exists_bundle_of_chain hchain
  rw [Payload.write, List.append_assoc p.toFrontParts.write] at h
  -- the cut is before the bundle, in it, or behind it
  rcases endsIn_append_iff.1 h with h | ⟨r₂, hmiddle, hback⟩
  · rcases endsIn_append_iff.1 h with h | ⟨r₁, hfront, h⟩
    · obtain ⟨consumed, length, hshort⟩ :=
        readFront_of_endsIn haccepts h hstart (by
          rintro r' hpasses ⟨lost, hlost, hword⟩
          refine hopening ⟨r'.rest, ⟨lost, hword.symm⟩, ?_,
            hpasses.eq_append⟩
          intro hwhole
          rw [hwhole] at hword
          exact hlost (List.self_eq_append_right.1 hword))
      exact ⟨[], calls, _, rfl,
        ends_ofExcept_bind_iff.2 (Or.inl ⟨_, hshort, rfl, rfl⟩),
        consumed, length, rfl⟩
    · rw [hwritten] at hchain h
      obtain ⟨first, later, outcome, hcalls, hends, consumed, length, ho⟩ :=
        readBundle_of_endsIn hchain h (by
          intro r' hpasses hnil
          apply hbundle
          rw [(hfront.trans hpasses).eq_append, hnil, List.append_nil]
          rfl)
      rw [ho] at hends
      refine ⟨first, later, _, hcalls, ?_, consumed, length, rfl⟩
      exact ends_ofExcept_bind_iff.2 (Or.inr ⟨(p.front, r₁),
        readFront_iff_passes.2 ⟨p.toFrontParts, rfl, haccepts, hfront⟩,
        hends.bind_error⟩)
  · obtain ⟨r₁, hfront, hmiddle⟩ := passes_append_iff.1 hmiddle
    obtain ⟨consumed, length, hshort⟩ := readBack_of_endsIn hback
    refine ⟨calls, [], .error (.trailingOrMissingData consumed length),
      (List.append_nil calls).symm, ?_, consumed, length, rfl⟩
    refine ends_ofExcept_bind_iff.2 (Or.inr ⟨(p.front, r₁),
      readFront_iff_passes.2 ⟨p.toFrontParts, rfl, haccepts, hfront⟩, ?_⟩)
    rw [← List.append_nil calls]
    refine Ends.bind_ok
      (readBundle_ends_ok_iff.2 ⟨p.bundle, hmiddle, hchain⟩) ?_
    exact ends_ofExcept_bind_iff.2 (Or.inl ⟨_, hshort, rfl, rfl⟩)

/-- Where the bundle should begin there is none. -/
theorem read_beforeBundle {p : Payload}
    (haccepts : accepts p.timestamp w.now = true) :
    (read w accepts p.beforeBundle).Ends []
      (.error (.malformedBundle .missing)) := by
  obtain ⟨r₂, h, hrest⟩ :=
    exists_passes_ofBytes (List.append_nil p.beforeBundle).symm
  obtain ⟨r₁, hfront, hopening⟩ := passes_append_iff.1 h
  refine ends_ofExcept_bind_iff.2 (Or.inr ⟨(p.front, r₁),
    readFront_iff_passes.2 ⟨p.toFrontParts, rfl, haccepts, hfront⟩, ?_⟩)
  exact (readBundle_of_rest_nil hopening hrest).bind_error

/-- A cut in the opening of the registers is taken for another field,
also where the key of any other field would be missing data. -/
theorem read_of_cutsRegisters {p : Payload} {cut : Bytes}
    (haccepts : accepts p.timestamp w.now = true)
    (h : p.CutsRegisters cut) :
    (read w accepts cut).Ends []
      (.error (.unexpectedField (.field .pcrs))) := by
  obtain ⟨part, hbegins, hpart, hcut⟩ := h
  have hnot : ¬Field.pcrs.spelling.isPrefixOf part = true := by
    intro hwhole
    have hle := (List.isPrefixOf_iff_prefix.1 hwhole).length_le
    exact hpart (hbegins.eq_of_length_le hle)
  obtain ⟨r₄, h, hrest⟩ := exists_passes_ofBytes hcut
  obtain ⟨r₃, h, htime⟩ := passes_append_iff.1 h
  obtain ⟨r₂, h, hdigest⟩ := passes_append_iff.1 h
  obtain ⟨r₁, hheader, hmodule⟩ := passes_append_iff.1 h
  have hpcrs : readPcrs r₄ = .error (.unexpectedField (.field .pcrs)) := by
    rw [readPcrs, Pcrs.read, Field.opening_eq, hrest, if_neg hnot]
    rfl
  have hfront : readFront accepts w.now (ofBytes cut)
      = .error (.unexpectedField (.field .pcrs)) := by
    rw [readFront, mapHeader_eq, demand_pass?_iff.2 hheader]
    show (readModuleId r₁ >>= _) = _
    rw [readModuleId_iff_passes.2 ⟨p.moduleId_fits, hmodule⟩]
    show (expect .digest r₂ >>= _) = _
    rw [expect_iff_passes.2 hdigest]
    show (readTimestamp r₃ >>= _) = _
    rw [readTimestamp_iff_passes.2 htime]
    show (require (accepts p.timestamp w.now = true) _ >>= _) = _
    rw [require_bind, if_pos haccepts, hpcrs]
    rfl
  exact ends_ofExcept_bind_iff.2 (Or.inl ⟨_, hfront, rfl, rfl⟩)

/-- Where a payload that is read may be cut off. Right before the header
of the bundle the cut is reported as a bundle that is missing; anywhere
else, but for the opening of the registers, as missing data. -/
theorem trace_read_of_cut {answer : Nat → Query → Bool} {count : Nat}
    {payload : Bytes} {s : Statement}
    (h : (read w accepts payload).trace answer count = (calls, .ok s)) :
    ∃ p : Payload, payload = p.write ∧ ∀ cut lost,
      payload = cut ++ lost → cut ≠ [] → lost ≠ [] →
        (cut = p.beforeBundle →
            ((read w accepts cut).trace answer count).2
              = .error (.malformedBundle .missing))
          ∧ (cut ≠ p.beforeBundle → ¬p.CutsRegisters cut →
            ∃ consumed length, ((read w accepts cut).trace answer count).2
              = .error (.trailingOrMissingData consumed length)) := by
  obtain ⟨hends, hanswered⟩ := trace_eq_iff.1 h
  obtain ⟨p, key, hpayload, haccepts, hchain, -⟩ := read_ends_ok_iff.1 hends
  refine ⟨p, hpayload, ?_⟩
  intro cut lost hcut hstart hlost
  constructor
  · intro hbundle
    rw [hbundle]
    exact trace_snd_eq_iff.2 ⟨[], read_beforeBundle haccepts, trivial⟩
  · intro hbundle hopening
    have hcuts : (ofBytes cut).EndsIn p.write :=
      ⟨lost, hlost, hpayload.symm.trans hcut⟩
    obtain ⟨first, later, outcome, hcalls, hread, consumed, length, ho⟩ :=
      read_of_endsIn haccepts hchain hcuts hstart hbundle hopening
    rw [hcalls] at hanswered
    rw [ho] at hread
    exact ⟨consumed, length, trace_snd_eq_iff.2
      ⟨first, hread, (answered_append_iff.1 hanswered).1⟩⟩

/-- The small chain's payload may be cut off. -/
theorem trace_read_of_cut_smallChain :
    (read SmallChain.walk .any SmallChain.payload.write).trace
          (fun _ _ => true) 0
        = (SmallChain.calls,
            .ok (SmallChain.payload.statement SmallChain.own.publicKey))
      ∧ ∃ p : Payload, SmallChain.payload.write = p.write ∧ ∀ cut lost,
        SmallChain.payload.write = cut ++ lost → cut ≠ [] → lost ≠ [] →
          (cut = p.beforeBundle →
              ((read SmallChain.walk .any cut).trace (fun _ _ => true) 0).2
                = .error (.malformedBundle .missing))
            ∧ (cut ≠ p.beforeBundle → ¬p.CutsRegisters cut →
              ∃ consumed length,
                ((read SmallChain.walk .any cut).trace
                    (fun _ _ => true) 0).2
                  = .error (.trailingOrMissingData consumed length)) :=
  ⟨SmallChain.trace_read, trace_read_of_cut SmallChain.trace_read⟩

/-- Not every cut is reported as missing data. Right before the header
of the bundle the bundle is said to be missing, and right before the
registers the next field is said to be another one. -/
theorem trace_read_cut_smallChain :
    (read SmallChain.walk .any SmallChain.payload.write).trace
          (fun _ _ => true) 0
        = (SmallChain.calls,
            .ok (SmallChain.payload.statement SmallChain.own.publicKey))
      ∧ (∃ cut lost, SmallChain.payload.write = cut ++ lost
        ∧ cut ≠ [] ∧ lost ≠ []
        ∧ ((read SmallChain.walk .any cut).trace (fun _ _ => true) 0).2
            = .error (.malformedBundle .missing))
      ∧ ∃ cut lost, SmallChain.payload.write = cut ++ lost
        ∧ cut ≠ [] ∧ lost ≠ []
        ∧ ((read SmallChain.walk .any cut).trace (fun _ _ => true) 0).2
            = .error (.unexpectedField (.field .pcrs)) := by
  refine ⟨SmallChain.trace_read, ?_, ?_⟩
  · refine ⟨SmallChain.payload.beforeBundle,
      SmallChain.payload.bundle ++ SmallChain.payload.toBackParts.write,
      ?_, List.cons_ne_nil _ _, List.cons_ne_nil _ _, ?_⟩
    · rw [Payload.write, Payload.beforeBundle, ← List.append_assoc]
    · exact trace_snd_eq_iff.2 ⟨[], read_beforeBundle rfl, trivial⟩
  · have hcuts : SmallChain.payload.CutsRegisters
        SmallChain.payload.beforeRegisters :=
      ⟨[], List.nil_prefix, (List.cons_ne_nil _ _).symm,
        (List.append_nil _).symm⟩
    refine ⟨SmallChain.payload.beforeRegisters,
      SmallChain.payload.registers.write
        ++ (certificateBytes SmallChain.payload.certificate
          ++ (Field.cabundle.spelling ++ (SmallChain.payload.bundle
            ++ SmallChain.payload.toBackParts.write))),
      ?_, List.cons_ne_nil _ _, List.cons_ne_nil _ _, ?_⟩
    · rw [Payload.write, FrontParts.write, FrontParts.beforeRegisters]
      simp only [List.append_assoc]
    · exact trace_snd_eq_iff.2 ⟨[], read_of_cutsRegisters rfl hcuts, trivial⟩

-- ===================================================== more of a payload

/-- Bytes after the last field are too many, whatever they are. -/
theorem readBack_append {p : BackParts} {more : Bytes}
    (hrest : r.rest = p.write ++ more) (hmore : more ≠ []) :
    readBack r = .error (.trailingOrMissingData
      (r.position + p.write.length)
      (r.position + p.write.length + more.length)) := by
  obtain ⟨r₃, h, hlast⟩ := exists_passes hrest
  have hposition := h.position_eq
  obtain ⟨r₂, h, hnonce⟩ := passes_append_iff.1 h
  obtain ⟨r₁, hkey, hdata⟩ := passes_append_iff.1 h
  have hopen : ¬r₃.isEmpty = true := by
    rw [Reader.isEmpty_iff, hlast]
    exact hmore
  rw [readBack, readOptional_iff_passes.2 ⟨p.publicKey, rfl, hkey⟩]
  show (readOptional .userData r₁ >>= _) = _
  rw [readOptional_iff_passes.2 ⟨p.userData, rfl, hdata⟩]
  show (readOptional .nonce r₂ >>= _) = _
  rw [readOptional_iff_passes.2 ⟨p.nonce, rfl, hnonce⟩]
  show (require (r₃.isEmpty = true) r₃.missing >>= _) = _
  rw [require, if_neg hopen, ← hposition, ← hlast]
  rfl

/-- A payload that goes on after its end is refused there. -/
theorem read_append_ends {p : Payload} {more : Bytes}
    (haccepts : accepts p.timestamp w.now = true)
    (hchain : (w.chain p.certificate p.bundle).Ends calls
      (.ok (key, p.bundle.length))) (hmore : more ≠ []) :
    (read w accepts (p.write ++ more)).Ends calls
      (.error (.trailingOrMissingData p.write.length
        (p.write.length + more.length))) := by
  have hstart : (ofBytes (p.write ++ more)).rest
      = p.toFrontParts.write ++ (Field.cabundle.spelling ++ p.bundle)
        ++ (p.toBackParts.write ++ more) := by
    show p.write ++ more = _
    rw [Payload.write]
    simp only [List.append_assoc]
  obtain ⟨r₂, h, hback⟩ := exists_passes hstart
  obtain ⟨r₁, hfront, hmiddle⟩ := passes_append_iff.1 h
  have hlength : r₂.position + p.toBackParts.write.length
      = p.write.length := by
    rw [h.position_eq_length, Payload.write]
    simp only [List.length_append, Nat.add_assoc]
  refine ends_ofExcept_bind_iff.2 (Or.inr ⟨(p.front, r₁),
    readFront_iff_passes.2 ⟨p.toFrontParts, rfl, haccepts, hfront⟩, ?_⟩)
  rw [← List.append_nil calls, ← hlength]
  refine Ends.bind_ok
    (readBundle_ends_ok_iff.2 ⟨p.bundle, hmiddle, hchain⟩) ?_
  exact ends_ofExcept_bind_iff.2
    (Or.inl ⟨_, readBack_append hback hmore, rfl, rfl⟩)

end Statement

-- ================================================ one end for each part

/-- Two ways to write a bundle end at the same place. -/
theorem Bundle.write_append_inj {b c : Bundle} {more rest : Bytes}
    (h : b.write ++ more = c.write ++ rest) : more = rest := by
  obtain ⟨r₁, hb, hmore⟩ := exists_passes_ofBytes (rfl : b.write ++ more = _)
  obtain ⟨r₂, hc, hrest⟩ := exists_passes_ofBytes h
  obtain ⟨n, q, hcount, hframes⟩ := exists_frames_iff.2 ⟨b, rfl, hb⟩
  obtain ⟨n', q', hcount', hframes'⟩ := exists_frames_iff.2 ⟨c, rfl, hc⟩
  cases hcount.symm.trans hcount'
  have hsame := hframes.symm.trans hframes'
  rw [Prod.mk.injEq, Except.ok.injEq] at hsame
  rw [← hmore, ← hrest, hsame.2]

/-- Nothing but the end follows the last fields. -/
theorem BackParts.write_append_inj {p q : BackParts} {more : Bytes}
    (h : p.write ++ more = q.write) : more = [] := by
  by_contra hmore
  have hlong :=
    Statement.readBack_append (r := ofBytes (p.write ++ more)) rfl hmore
  rw [Statement.readBack_eq_ok_iff.2 ⟨q, rfl, h⟩] at hlong
  cases hlong

/-- A written payload whose bundle is one does not begin another. -/
theorem Payload.write_append_inj {p q : Payload} {b c : Bundle}
    {more : Bytes} (hb : p.bundle = b.write) (hc : q.bundle = c.write)
    (h : p.write ++ more = q.write) : more = [] := by
  rw [Payload.write, Payload.write, hb, hc] at h
  simp only [List.append_assoc] at h
  obtain ⟨-, h⟩ := Statement.frontParts_write_inj h
  have h := List.append_cancel_left h
  have h := Bundle.write_append_inj h
  exact BackParts.write_append_inj h

/-- A written payload whose bundle is one has one bundle, and the same
parts before it. -/
theorem Payload.parts_eq_of_write {p q : Payload} {b c : Bundle}
    (hb : p.bundle = b.write) (hc : q.bundle = c.write)
    (h : p.write = q.write) :
    p.front = q.front ∧ p.bundle = q.bundle := by
  rw [Payload.write, Payload.write, hb, hc] at h
  simp only [List.append_assoc] at h
  obtain ⟨hfront, h⟩ := Statement.frontParts_write_inj h
  have h := List.append_cancel_left h
  rw [Bundle.write_append_inj h] at h
  rw [hb, hc]
  exact ⟨hfront, List.append_cancel_right h⟩

namespace Statement

variable {w : Walk} {accepts : AgeRule} {calls : List Call}

/-- A payload that is read ends where it ends. With any more bytes it is
refused at its own end, after the same questions; and no walk in either
mode, no rule about its age and no judge make it the beginning of
another payload that is read. -/
theorem trace_read_append {answer : Nat → Query → Bool} {count : Nat}
    {payload more : Bytes} {s : Statement}
    (h : (read w accepts payload).trace answer count = (calls, .ok s))
    (hmore : more ≠ []) :
    (read w accepts (payload ++ more)).trace answer count
        = (calls, .error (.trailingOrMissingData payload.length
            (payload.length + more.length)))
      ∧ ∀ (w' : Walk) (accepts' : AgeRule) (answer' : Nat → Query → Bool)
          (count' : Nat) (calls' : List Call) (s' : Statement),
        (read w' accepts' (payload ++ more)).trace answer' count'
          ≠ (calls', .ok s') := by
  obtain ⟨hends, hanswered⟩ := trace_eq_iff.1 h
  obtain ⟨p, key, hpayload, haccepts, hchain, -⟩ := read_ends_ok_iff.1 hends
  rw [hpayload]
  constructor
  · exact trace_eq_iff.2
      ⟨read_append_ends haccepts hchain hmore, hanswered⟩
  · intro w' accepts' answer' count' calls' s' h'
    obtain ⟨q, key', hlong, -, hchain', -⟩ :=
      read_ends_ok_iff.1 (trace_eq_iff.1 h').1
    obtain ⟨b, hb⟩ := exists_bundle_of_chain hchain
    obtain ⟨c, hc⟩ := exists_bundle_of_chain hchain'
    exact hmore (Payload.write_append_inj hb hc hlong)

/-- The small chain's payload with one more byte. -/
theorem trace_read_append_smallChain :
    (read SmallChain.walk .any SmallChain.payload.write).trace
          (fun _ _ => true) 0
        = (SmallChain.calls,
            .ok (SmallChain.payload.statement SmallChain.own.publicKey))
      ∧ ([0] : Bytes) ≠ []
      ∧ (read SmallChain.walk .any (SmallChain.payload.write ++ [0])).trace
            (fun _ _ => true) 0
          = (SmallChain.calls, .error (.trailingOrMissingData
              SmallChain.payload.write.length
              (SmallChain.payload.write.length + ([0] : Bytes).length)))
      ∧ ∀ (w' : Walk) (accepts' : AgeRule) (answer' : Nat → Query → Bool)
          (count' : Nat) (calls' : List Call) (s' : Statement),
        (read w' accepts' (SmallChain.payload.write ++ [0])).trace answer'
            count'
          ≠ (calls', .ok s') :=
  ⟨SmallChain.trace_read, List.cons_ne_nil _ _,
    trace_read_append SmallChain.trace_read (List.cons_ne_nil _ _)⟩

end Statement

end Attestation
