/-
What is not verified has no say. In the reduced mode the enclave's own
certificate and the first entry of the bundle are passed over: their
content may be anything, and the payload is read to the same statement
or refused for the same reason (`read_eq_of_sameButUnread`). And a walk
in which a certificate fails has not looked at the ones after it, so
these may be anything too (`read_of_chain_refused`).

Both are statements about two payloads. A payload does not have to be
read for its certificate to have a place: `FrontOutline` are bytes that
are laid out like the fields before it, whatever stands in them, and
such bytes settle what is read up to there (`exists_readFront`). So the
first statement covers payloads that are refused, and for the same
reason in both; two accepted payloads would not be enough, since a
change that turns one refusal into another is a say as well.

A reading is settled by a word if it gives the same wherever the word
stands, and reads it whole or fails (`Settles`). The certificate has two
bytes in front of it with its length, and the entry of the bundle too,
so two payloads that differ in the content of these, and not in its
length, pass over the same places. Positions have to be the same as
well, because refusals for missing data report them.

In full mode the certificate is read, so there nothing is passed over.
What takes the place of that is the order of a walk: entries are looked
at as they come, and the one that fails is the last.
-/
import Attestation.Proofs.Document.Extent
import Attestation.Proofs.Verification.Consultation

namespace Attestation

open Reader Inquiry Attestation.Bundle

variable {r r' : Reader} {calls : List Call}

-- ================================================== words that settle

/-- What a rule makes of a word does not depend on what follows the
word. -/
def Settles {α : Type} (read : Reader → Except Refusal (α × Reader))
    (word : Bytes) : Prop :=
  ∃ outcome : Except Refusal α, ∀ r r', r.Passes word r' →
    read r = outcome.map fun value => (value, r')

/-- What comes after a settled part is after its outcome. -/
theorem bind_settled {α β γ : Type} (outcome : Except Refusal α)
    (f : α → β) (next : β → Except Refusal γ) :
    outcome.map f >>= next = outcome >>= fun value => next (f value) := by
  cases outcome <;> rfl

/-- Bytes in the place of an opening settle whether it is passed. -/
theorem exists_pass? {opening : Bytes} (key : FixedBytes opening.length) :
    ∃ passed : Bool, ∀ r r' : Reader, r.Passes key.toList r' →
      r.pass? opening = if passed then some r' else none := by
  refine ⟨key.toList = opening, ?_⟩
  intro r r' h
  by_cases hsame : key.toList = opening
  · rw [hsame] at h
    rw [if_pos (decide_eq_true hsame)]
    exact pass?_iff_passes.2 h
  · rw [if_neg (by rw [decide_eq_true_eq]; exact hsame),
      Option.eq_none_iff_forall_ne_some]
    intro r₁ hpass
    have hrest := (pass?_iff_passes.1 hpass).rest_eq
    rw [h.rest_eq] at hrest
    exact hsame (List.append_inj hrest key.length_toList).1

namespace Statement

/-- The bytes in the place of an opening settle whether it is found. -/
theorem exists_expect (f : Field) (key : FixedBytes f.spelling.length) :
    ∃ outcome : Except Refusal Unit, ∀ r r', r.Passes key.toList r' →
      expect f r = outcome.map fun _ => r' := by
  obtain ⟨passed, hpassed⟩ := exists_pass? key
  cases passed with
  | true =>
    refine ⟨.ok (), ?_⟩
    intro r r' h
    rw [expect, f.opening_eq, hpassed r r' h]
    rfl
  | false =>
    refine ⟨.error (.unexpectedField (.field f)), ?_⟩
    intro r r' h
    have hlong : ¬(r.remaining < f.spelling.length
        ∧ r.rest.isPrefixOf f.spelling = true) := by
      rw [remaining, h.rest_eq, List.length_append, key.length_toList]
      intro hshort
      exact Nat.not_lt.2 (Nat.le_add_right _ _) hshort.1
    rw [expect, f.opening_eq, hpassed r r' h, if_neg hlong]
    rfl

/-- Bytes laid out like a name settle whether it is read. -/
theorem settles_readModuleId {name : Bytes} (hfits : name.length < 256)
    (key : FixedBytes Field.moduleId.spelling.length) :
    Settles readModuleId
      (key.toList ++ Bytes.ofNat 1 name.length ++ name) := by
  obtain ⟨passed, hpassed⟩ := exists_expect .moduleId key
  refine ⟨passed >>= fun _ => ((Utf8.decode name).mapError fun _ =>
    .unexpectedField (.field .moduleId)).map String.ofList, ?_⟩
  intro r r₃ h
  obtain ⟨r₂, h, hname⟩ := passes_append_iff.1 h
  obtain ⟨r₁, hkey, hlength⟩ := passes_append_iff.1 h
  rw [readModuleId, hpassed r r₁ hkey]
  cases passed with
  | error reason => rfl
  | ok _ =>
    show (demand (r₁.nat? 1) r₁.missing >>= _) = _
    rw [demand_nat?_iff.2 ⟨hfits, hlength⟩]
    show (demand (r₂.take? name.length) r₂.missing >>= _) = _
    rw [demand_take?_iff.2 ⟨rfl, hname⟩]
    show (pure (name, r₃) >>= _) = _
    rw [pure_bind]
    dsimp only
    cases Utf8.decode name <;> rfl

/-- Bytes laid out like a time settle which time is read. -/
theorem settles_readTimestamp (t : UInt64)
    (key : FixedBytes Field.timestamp.spelling.length) :
    Settles readTimestamp (key.toList ++ Bytes.ofNat 8 t.toNat) := by
  obtain ⟨passed, hpassed⟩ := exists_expect .timestamp key
  refine ⟨passed.map fun _ => t, ?_⟩
  intro r r₂ h
  obtain ⟨r₁, hkey, hnumber⟩ := passes_append_iff.1 h
  rw [readTimestamp, hpassed r r₁ hkey]
  cases passed with
  | error reason => rfl
  | ok _ =>
    show (demand (r₁.nat? 8) r₁.missing >>= _) = _
    rw [demand_nat?_iff.2 ⟨t.toNat_lt, hnumber⟩]
    show Except.ok (UInt64.ofNat t.toNat, r₂) = Except.ok (t, r₂)
    rw [UInt64.ofNat_toNat]

/-- Bytes of the length of the registers settle whether they are read.
-/
theorem settles_readPcrs (field : FixedBytes Pcrs.fieldLength) :
    Settles readPcrs field.toList := by
  by_cases hopening : Field.pcrs.spelling <+: field.toList
  · obtain ⟨p, hp⟩ := Registers.exists_write field.length_toList hopening
    refine ⟨.ok p.kept, ?_⟩
    intro r r' h
    rw [hp] at h
    exact readPcrs_iff_passes.2 ⟨p, rfl, h⟩
  · refine ⟨.error (.unexpectedField (.field .pcrs)), ?_⟩
    intro r r' h
    have hother : ¬Field.pcrs.spelling.isPrefixOf r.rest = true := by
      rw [List.isPrefixOf_iff_prefix, h.rest_eq]
      intro hbegins
      refine hopening (List.prefix_of_prefix_length_le hbegins
        (List.prefix_append _ _) ?_)
      rw [field.length_toList]
      decide
    rw [readPcrs, Pcrs.read, Field.opening_eq, if_neg hother]
    rfl

end Statement

-- =============================================== up to the certificate

/-- Bytes that are laid out like a payload up to the content of the
enclave's own certificate, of which `announced` bytes are to follow.
What stands in the places of the openings may be wrong, and the name of
the module need not be a text. -/
structure FrontOutline where
  mapHeader : FixedBytes mapHeaderBytes.length
  moduleIdKey : FixedBytes Field.moduleId.spelling.length
  moduleId : Bytes
  moduleId_fits : moduleId.length < 256
  digest : FixedBytes Field.digest.spelling.length
  timestampKey : FixedBytes Field.timestamp.spelling.length
  timestamp : UInt64
  pcrs : FixedBytes Pcrs.fieldLength
  certificateKey : FixedBytes Field.certificate.spelling.length
  announced : Nat
  announced_fits : announced < 65536

namespace FrontOutline

def write (f : FrontOutline) : Bytes :=
  f.mapHeader.toList
    ++ (f.moduleIdKey.toList ++ Bytes.ofNat 1 f.moduleId.length
      ++ f.moduleId)
    ++ f.digest.toList
    ++ (f.timestampKey.toList ++ Bytes.ofNat 8 f.timestamp.toNat)
    ++ f.pcrs.toList
    ++ (f.certificateKey.toList ++ Bytes.ofNat 2 f.announced)

/-- The bytes before the certificate settle everything about the first
fields but its content. -/
theorem exists_readFront (f : FrontOutline) (accepts : AgeRule)
    (now : UInt64) :
    ∃ settled : Except Refusal Statement.Front,
      ∀ r r', r.Passes f.write r' →
        Statement.readFront accepts now r = (do
          let front ← settled
          let (der, r'') ← demand (r'.take? f.announced) r'.missing
          return ({ front with certificate := der }, r'')) := by
  obtain ⟨isMap, hmap⟩ := exists_pass? f.mapHeader
  obtain ⟨name, hname⟩ :=
    Statement.settles_readModuleId f.moduleId_fits f.moduleIdKey
  obtain ⟨digest, hdigest⟩ := Statement.exists_expect .digest f.digest
  obtain ⟨time, htime⟩ :=
    Statement.settles_readTimestamp f.timestamp f.timestampKey
  obtain ⟨pcrs, hpcrs⟩ := Statement.settles_readPcrs f.pcrs
  obtain ⟨own, hown⟩ :=
    Statement.exists_expect .certificate f.certificateKey
  refine ⟨do
    require (isMap = true) (.unexpectedField .mapHeader)
    let name ← name
    digest
    let time ← time
    require (accepts time now = true) (.staleTimestamp time now)
    let pcrs ← pcrs
    own
    return ⟨name, time, pcrs, []⟩, ?_⟩
  intro r r₇ h
  obtain ⟨r₅, h, hcertificate⟩ := passes_append_iff.1 h
  obtain ⟨r₆, hcertificate, hlength⟩ := passes_append_iff.1 hcertificate
  obtain ⟨r₄, h, hregisters⟩ := passes_append_iff.1 h
  obtain ⟨r₃, h, hstamp⟩ := passes_append_iff.1 h
  obtain ⟨r₂, h, hsha⟩ := passes_append_iff.1 h
  obtain ⟨r₁, hheader, hmodule⟩ := passes_append_iff.1 h
  have hmap : demand (r.pass? Statement.mapHeader)
      (Refusal.unexpectedField .mapHeader)
      = (require (isMap = true) (.unexpectedField .mapHeader)).map
          fun _ => r₁ := by
    rw [mapHeader_eq, hmap r r₁ hheader]
    cases isMap <;> rfl
  have hname := hname r₁ r₂ hmodule
  have hdigest := hdigest r₂ r₃ hsha
  have htime := htime r₃ r₄ hstamp
  have hpcrs := hpcrs r₄ r₅ hregisters
  have hown := hown r₅ r₆ hcertificate
  have hannounced : demand (r₆.nat? 2) r₆.missing = .ok (f.announced, r₇) :=
    demand_nat?_iff.2 ⟨f.announced_fits, hlength⟩
  unfold Statement.readFront Statement.readCertificate
  -- each part goes on to a reader that does not depend on its outcome
  simp only [hmap, hname, hdigest, htime, hpcrs, hown, hannounced,
    bind_settled, LawfulMonad.bind_assoc, LawfulMonad.pure_bind]
  rfl

end FrontOutline

-- ============================================ the bundle, passed over

/-- Passing over a number of bytes that were read comes to the reader
after them. -/
theorem skip?_position {q : Reader} {word : Bytes}
    (h : (ofBytes r.rest).Passes word q) :
    r.skip? q.position = some ⟨r.position + q.position, q.rest⟩ := by
  refine skip?_iff_passes.2
    ⟨word, h.position_eq_length.symm, h.eq_append, ?_⟩
  rw [h.position_eq_length]

/-- What the walk has used can always be passed over, so the reader
after the bundle is the one that the walk came to. -/
theorem Statement.readBundle_eq (w : Walk) (certificate : Bytes)
    (r : Reader) :
    readBundle w certificate r
      = (ofExcept (expect .cabundle r)).bind fun r =>
          (ofExcept (Bundle.count (ofBytes r.rest))).bind fun (n, q) =>
            (w.entries 0 w.anchor.issuer q n).bind fun (issuer, q) =>
              (w.leaf n issuer certificate).bind fun issuer =>
                done (issuer.key, ⟨r.position + q.position, q.rest⟩) := by
  unfold readBundle Walk.chain
  show (ofExcept (expect .cabundle r)).bind _ = _
  congr 1
  funext r₁
  simp only [bind_eq, pure_eq, bind_assoc]
  refine bind_congr_ends fun (n, q) _ hcount => ?_
  have hcount := (count_iff_passes.1 (ends_ofExcept_iff.1 hcount).2.symm).2
  refine bind_congr_ends fun (issuer, q') _ hentries => ?_
  obtain ⟨ders, -, -, hframes, -⟩ :=
    Walk.exists_takeIn_of_entries hentries
  refine bind_congr_ends fun issuer _ _ => ?_
  rw [Inquiry.bind, skip?_position (hcount.trans hframes)]
  rfl

namespace Walk

variable {w : Walk} {issuer : Issuer}

/-- In the reduced mode the first entry stands for itself. -/
theorem extend_zero_linkage (hmode : w.mode = .identityLinkage)
    (der : Bytes) : w.extend 0 issuer der = .done issuer := by
  rw [extend, confirmRoot, hmode]
  rfl

/-- In the reduced mode the enclave's own certificate is not looked at.
-/
theorem leaf_linkage (hmode : w.mode = .identityLinkage) (n : Nat)
    (certificate : Bytes) : w.leaf n issuer certificate = .done issuer := by
  rw [leaf, hmode]
  rfl

/-- In the reduced mode the content of the first entry is passed
over. -/
theorem entries_zero_linkage (hmode : w.mode = .identityLinkage)
    {m : Nat} (hm : m < 65536) (h : r.Passes (0x59 :: Bytes.ofNat 2 m) r')
    (left : Nat) :
    w.entries 0 issuer r (left + 1)
      = (ofExcept (demand (r'.take? m) r'.missing)).bind fun (_, q) =>
          w.entries 1 issuer q left := by
  obtain ⟨r₁, hheader, hlength⟩ := passes_cons_iff.1 h
  have hentry : Bundle.entry r = demand (r'.take? m) r'.missing := by
    rw [Bundle.entry, demand_byte?_iff.2 hheader]
    show (demand (r₁.nat? 2) r₁.missing >>= _) = _
    rw [demand_nat?_iff.2 ⟨hm, hlength⟩]
    rfl
  rw [entries, hentry]
  simp only [bind_eq, extend_zero_linkage hmode]
  rfl

end Walk

-- ============================================ payloads that look alike

/-- Two ends of a payload, from the field of the bundle on, are the
same but for the content of the first entry, of which `m` bytes are
announced. They may end before all of these have come. -/
inductive SameButRoot : Bytes → Bytes → Prop where
  | same (rest : Bytes) : SameButRoot rest rest
  | root (key : FixedBytes Field.cabundle.spelling.length) (left m : Nat)
      (hleft : left < 15) (hm : m < 65536) {rest rest' : Bytes}
      (hlength : rest.length = rest'.length)
      (hdrop : rest.drop m = rest'.drop m) :
      SameButRoot
        (key.toList ++ (header (left + 1)
          ++ ((0x59 :: Bytes.ofNat 2 m) ++ rest)))
        (key.toList ++ (header (left + 1)
          ++ ((0x59 :: Bytes.ofNat 2 m) ++ rest')))

/-- Two payloads are the same but for the content of the enclave's own
certificate and of the first entry of the bundle. -/
inductive SameButUnread : Bytes → Bytes → Prop where
  | same (payload : Bytes) : SameButUnread payload payload
  | own (f : FrontOutline) {rest rest' : Bytes}
      (hlength : rest.length = rest'.length)
      (h : SameButRoot (rest.drop f.announced) (rest'.drop f.announced)) :
      SameButUnread (f.write ++ rest) (f.write ++ rest')

/-- The outline of written fields. -/
def FrontParts.outline (p : FrontParts) : FrontOutline where
  mapHeader := ⟨mapHeaderBytes, rfl⟩
  moduleIdKey := ⟨Field.moduleId.spelling, rfl⟩
  moduleId := Utf8.encode p.moduleId.toList
  moduleId_fits := p.moduleId_fits
  digest := ⟨Field.digest.spelling, rfl⟩
  timestampKey := ⟨Field.timestamp.spelling, rfl⟩
  timestamp := p.timestamp
  pcrs := ⟨p.registers.write, p.registers.length_write⟩
  certificateKey := ⟨Field.certificate.spelling, rfl⟩
  announced := p.certificate.length
  announced_fits := p.certificate_fits

/-- Fields that are read are laid out so. -/
theorem FrontParts.write_eq_outline (p : FrontParts) :
    p.write = p.outline.write ++ p.certificate := by
  rw [FrontParts.write, certificateBytes, ← List.append_assoc]
  rfl

/-- The fields with another certificate. -/
def FrontParts.withCertificate (p : FrontParts) (der : Bytes)
    (hfits : der.length < 65536) : FrontParts :=
  { p with certificate := der, certificate_fits := hfits }

/-- The outline has the length of the certificate, not its content. -/
theorem FrontParts.outline_withCertificate (p : FrontParts) {der : Bytes}
    (hfits : der.length < 65536)
    (hlength : der.length = p.certificate.length) :
    (p.withCertificate der hfits).outline = p.outline := by
  simp only [outline, withCertificate, hlength]

/-- The content of the first entry stands behind its announced
length. -/
theorem Bundle.write_eq_root {b : Bundle} {root : Bytes}
    {later : List Bytes} (h : b.entries = root :: later) :
    b.write = header (later.length + 1)
      ++ ((0x59 :: Bytes.ofNat 2 root.length)
        ++ (root ++ later.flatMap frame)) := by
  rw [Bundle.write, h, List.flatMap_cons, frame, List.length_cons]
  simp only [List.append_assoc, List.cons_append]

/-- Written payloads of one outline, whose bundles differ in the first
entry only, are the same but for what is passed over. -/
theorem SameButUnread.of_write {p q : Payload} {b c : Bundle}
    {root root' : Bytes} {later : List Bytes}
    (houtline : p.outline = q.outline)
    (hback : p.toBackParts = q.toBackParts)
    (hb : p.bundle = b.write) (hc : q.bundle = c.write)
    (hentries : b.entries = root :: later)
    (hentries' : c.entries = root' :: later)
    (hlength : root.length = root'.length) :
    SameButUnread p.write q.write := by
  have hown : p.certificate.length = q.certificate.length :=
    congrArg FrontOutline.announced houtline
  have hcount : later.length < 15 := by
    have hle := b.count_le
    rw [hentries, List.length_cons] at hle
    exact hle
  have hroot : root.length < 65536 :=
    b.entry_lt root (by rw [hentries]; exact List.mem_cons_self ..)
  rw [Payload.write, Payload.write, hb, hc, ← hback,
    FrontParts.write_eq_outline, FrontParts.write_eq_outline, ← houtline,
    Bundle.write_eq_root hentries, Bundle.write_eq_root hentries',
    ← hlength]
  simp only [List.append_assoc]
  refine .own p.outline ?_ ?_
  · simp only [List.length_append, hown, hlength]
  · show SameButRoot ((p.certificate ++ _).drop p.certificate.length)
      ((q.certificate ++ _).drop p.certificate.length)
    rw [List.drop_left, hown, List.drop_left]
    refine .root ⟨Field.cabundle.spelling, rfl⟩ later.length root.length
      hcount hroot ?_ ?_
    · simp only [List.length_append, hlength]
    · rw [List.drop_left, hlength, List.drop_left]

namespace Statement

variable {w : Walk} {accepts : AgeRule} {payload payload' : Bytes}

/-- In the reduced mode, what comes before the content of the first
entry settles everything about the bundle but what comes after it. -/
theorem exists_readBundle (hmode : w.mode = .identityLinkage)
    (key : FixedBytes Field.cabundle.spelling.length) {left m : Nat}
    (hleft : left < 15) (hm : m < 65536) :
    ∃ passed : Except Refusal Unit, ∀ position rest certificate,
      readBundle w certificate ⟨position, key.toList ++ (header (left + 1)
          ++ ((0x59 :: Bytes.ofNat 2 m) ++ rest))⟩
        = (ofExcept passed).bind fun _ =>
          (ofExcept (demand (take? ⟨4, rest⟩ m) (missing ⟨4, rest⟩))).bind
            fun (_, q) =>
              (w.entries 1 w.anchor.issuer q left).bind fun (issuer, q) =>
                done (issuer.key, ⟨position + key.toList.length
                  + q.position, q.rest⟩) := by
  obtain ⟨passed, hpassed⟩ := exists_expect .cabundle key
  refine ⟨passed, ?_⟩
  intro position rest certificate
  let entry : Bytes := (0x59 :: Bytes.ofNat 2 m) ++ rest
  let bundle : Bytes := header (left + 1) ++ entry
  have hkey : Passes ⟨position, key.toList ++ bundle⟩ key.toList
      ⟨position + key.toList.length, bundle⟩ := ⟨rfl, rfl⟩
  have hheader : (ofBytes bundle).Passes (header (left + 1)) ⟨1, entry⟩ :=
    ⟨rfl, rfl⟩
  have hentry : Passes ⟨1, entry⟩ (0x59 :: Bytes.ofNat 2 m) ⟨4, rest⟩ := by
    refine ⟨rfl, ?_⟩
    rw [List.length_cons, Bytes.length_ofNat]
  rw [readBundle_eq, hpassed _ _ hkey]
  cases passed with
  | error reason => rfl
  | ok _ =>
  show (ofExcept (Bundle.count (ofBytes bundle))).bind _
    = (ofExcept (demand (take? ⟨4, rest⟩ m) (missing ⟨4, rest⟩))).bind _
  rw [count_iff_passes.2 ⟨hleft, hheader⟩]
  show (w.entries 0 w.anchor.issuer ⟨1, entry⟩ (left + 1)).bind _ = _
  rw [Walk.entries_zero_linkage hmode hm hentry, bind_assoc]
  simp only [Walk.leaf_linkage hmode]
  rfl

/-- In the reduced mode the first entry is not looked at. -/
theorem readBundle_eq_of_sameButRoot (hmode : w.mode = .identityLinkage)
    (position : Nat) {rest rest' : Bytes} (h : SameButRoot rest rest')
    (certificate certificate' : Bytes) :
    readBundle w certificate ⟨position, rest⟩
      = readBundle w certificate' ⟨position, rest'⟩ := by
  cases h with
  | same =>
    rw [readBundle_eq, readBundle_eq]
    simp only [Walk.leaf_linkage hmode]
  | root key left m hleft hm hlength hdrop =>
    rename_i rest rest'
    obtain ⟨passed, hpassed⟩ := exists_readBundle hmode key hleft hm
    rw [hpassed, hpassed]
    by_cases hwhole : m ≤ rest.length
    · rw [take?_of_le hwhole, take?_of_le (hlength ▸ hwhole), ← hdrop]
      rfl
    · rw [Nat.not_le] at hwhole
      rw [take?_of_lt hwhole, take?_of_lt (hlength ▸ hwhole), missing,
        remaining, hlength]
      rfl

/-- In the reduced mode two such payloads are read in the same way. -/
theorem read_eq_of_sameButUnread (hmode : w.mode = .identityLinkage)
    (h : SameButUnread payload payload') :
    read w accepts payload = read w accepts payload' := by
  cases h with
  | same => rfl
  | own f hlength h =>
    rename_i rest rest'
    obtain ⟨settled, hsettled⟩ := f.exists_readFront accepts w.now
    have hpasses (rest : Bytes) : (ofBytes (f.write ++ rest)).Passes f.write
        ⟨0 + f.write.length, rest⟩ := ⟨rfl, rfl⟩
    rw [read, read, hsettled _ _ (hpasses rest),
      hsettled _ _ (hpasses rest')]
    cases settled with
    | error reason => rfl
    | ok front =>
    by_cases hwhole : f.announced ≤ rest.length
    · rw [take?_of_le hwhole, take?_of_le (hlength ▸ hwhole)]
      show (readBundle w _ _).bind _ = (readBundle w _ _).bind _
      rw [readBundle_eq_of_sameButRoot hmode _ h _ (rest'.take f.announced)]
      rfl
    · rw [Nat.not_le] at hwhole
      rw [take?_of_lt hwhole, take?_of_lt (hlength ▸ hwhole), missing,
        missing, remaining, remaining, hlength]

end Statement

-- ============================================ chains that are refused

namespace Statement

variable {w : Walk} {accepts : AgeRule} {cabundle : Bytes}
  {reason : Refusal}

/-- A walk that fails is the end of reading. -/
theorem read_of_chain_refused {p : FrontParts}
    (haccepts : accepts p.timestamp w.now = true)
    (h : (w.chain p.certificate cabundle).Ends calls (.error reason)) :
    (read w accepts (p.write ++ Field.cabundle.spelling ++ cabundle)).Ends
      calls (.error reason) := by
  obtain ⟨r₂, hpasses, hrest⟩ := exists_passes_ofBytes
    (rfl : p.write ++ Field.cabundle.spelling ++ cabundle = _)
  obtain ⟨r₁, hfront, hopening⟩ := passes_append_iff.1 hpasses
  refine ends_ofExcept_bind_iff.2 (Or.inr ⟨(p.front, r₁),
    readFront_iff_passes.2 ⟨p, rfl, haccepts, hfront⟩, ?_⟩)
  have hbundle : (readBundle w p.certificate r₁).Ends calls
      (.error reason) := by
    refine ends_ofExcept_bind_iff.2
      (Or.inr ⟨r₂, expect_iff_passes.2 hopening, ?_⟩)
    rw [hrest]
    exact h.bind_error
  exact hbundle.bind_error

/-- What is not verified does not influence what is read. In the
reduced mode, two payloads that are the same but for the content of the
enclave's own certificate and of the first entry are read to the same
end by any two judges, without a question. In full mode, a walk fails
over the framing of the bundle, over the enclave's own certificate,
which is the last of the chain, or over an entry; and then the entries
after it and the enclave's own certificate may be replaced by anything,
and the reason stays the same. -/
theorem trace_read_unread (w : Walk) (accepts : AgeRule) :
    (w.mode = .identityLinkage → ∀ payload payload',
      SameButUnread payload payload' →
        ∀ (answer answer' : Nat → Query → Bool) (count count' : Nat),
          (read w accepts payload).trace answer count
            = (read w accepts payload').trace answer' count')
      ∧ (w.mode = .full → ∀ (p : FrontParts) (cabundle : Bytes)
          (answer : Nat → Query → Bool) (count : Nat) (calls : List Call)
          (reason : Refusal),
        accepts p.timestamp w.now = true →
        (w.chain p.certificate cabundle).trace answer count
            = (calls, .error reason) →
          w.RefusesFraming cabundle calls reason
            ∨ (∃ b : Bundle, ∃ more, cabundle = b.write ++ more
              ∧ w.RefusesOwn p.certificate b calls reason)
            ∨ ∃ b : Beginning, ∃ more, cabundle = b.write ++ more
              ∧ w.RefusesEntry b calls reason
              ∧ ∀ certificate' more' hfits,
                (read w accepts
                    ((p.withCertificate certificate' hfits).write
                      ++ Field.cabundle.spelling
                      ++ (b.write ++ more'))).trace answer count
                  = (calls, .error reason)) := by
  constructor
  · intro hmode payload payload' h answer answer' count count'
    have hends := ends_trace answer count (read w accepts payload)
    have hnil := read_linkage_ends hmode hends
    rw [hnil] at hends
    have htrace : (read w accepts payload).trace answer count
        = ([], ((read w accepts payload).trace answer count).2) :=
      Prod.ext hnil rfl
    rw [htrace, ← read_eq_of_sameButUnread hmode h]
    exact (trace_eq_iff.2 ⟨hends, trivial⟩).symm
  · intro _ p cabundle answer count calls reason haccepts h
    obtain ⟨hends, hanswered⟩ := trace_eq_iff.1 h
    rcases Walk.refuses_of_chain hends with hframing | hown
      | ⟨b, more, hcabundle, hentry⟩
    · exact Or.inl hframing
    · exact Or.inr (Or.inl hown)
    · refine Or.inr (Or.inr ⟨b, more, hcabundle, hentry, ?_⟩)
      intro certificate' more' hfits
      refine trace_eq_iff.2 ⟨?_, hanswered⟩
      exact read_of_chain_refused haccepts
        (Walk.chain_of_refusesEntry hentry certificate' more')

end Statement

-- ===================================================== the small chain

namespace SmallChain

/-- The bundle with nothing but zeros for its first entry. -/
def blankBundle : Bundle where
  entries := [List.replicate root.parts.write.length 0, inner.parts.write]
  count_le := by decide
  entry_lt := by
    obtain ⟨hroot, hlater⟩ := List.forall_mem_cons.1 bundle.entry_lt
    refine List.forall_mem_cons.2 ⟨?_, hlater⟩
    rw [List.length_replicate]
    exact hroot

/-- As many zeros as the enclave's own certificate has bytes. -/
def zeros : Bytes :=
  List.replicate payload.certificate.length 0

theorem length_zeros : zeros.length = payload.certificate.length :=
  List.length_replicate

/-- The payload with that bundle, and with nothing but zeros for the
enclave's own certificate. -/
def blank : Payload where
  toFrontParts := payload.withCertificate zeros (by
    rw [length_zeros]
    exact payload.certificate_fits)
  toBackParts := payload.toBackParts
  bundle := blankBundle.write

/-- A payload that differs in what is not read. -/
theorem sameButUnread_blank :
    SameButUnread payload.write blank.write := by
  have houtline : blank.outline = payload.outline :=
    payload.outline_withCertificate _ length_zeros
  have hentries : blankBundle.entries
      = List.replicate root.parts.write.length 0 :: [inner.parts.write] :=
    rfl
  exact SameButUnread.of_write (b := bundle) (c := blankBundle)
    houtline.symm rfl rfl rfl rfl hentries List.length_replicate.symm

/-- The bundle up to the certificate after the root. -/
def beginning : Beginning where
  count := 2
  entries := bundle.entries
  count_le := by decide
  length_le := Nat.le_refl 2
  entry_lt := bundle.entry_lt

/-- A judge that says no to everything makes the walk fail over the
certificate after the root. -/
theorem refusesEntry : walk.RefusesEntry beginning
    [⟨anchor.issuer.question inner.certificate, false⟩]
    (.chainBroken 1) := by
  have hchain := unbroken (w := walk) rfl rfl rfl
  refine ⟨[root.parts.write], inner.parts.write, anchor.issuer, [], _, rfl,
    ?_, ?_, rfl⟩
  · have hconfirm : walk.confirmRoot root.parts.write = .ok () :=
      Walk.confirmRoot_eq_ok_iff.2 fun hfull => hchain.root hfull _ rfl
    have hroot : (walk.extend 0 anchor.issuer root.parts.write).Ends []
        (.ok anchor.issuer) :=
      ends_ofExcept_bind_ok_iff.2 ⟨(), hconfirm, .done anchor.issuer⟩
    exact hroot.bind_ok (.done anchor.issuer)
  · show (walk.link 1 anchor.issuer inner.parts.write).Ends _ _
    rw [Walk.link_eq]
    have hexamine : walk.examine 1 anchor.issuer inner.parts.write
        = .ok inner.certificate :=
      Walk.examine_eq_ok_iff.2 ⟨inner.read_parts, rfl, hchain.linked.2.1⟩
    refine ends_ofExcept_bind_iff.2 (Or.inr ⟨_, hexamine, ?_⟩)
    exact Ends.bind_error
      ((Walk.checkIssued_full_ends_iff rfl).2 ⟨false, rfl, rfl⟩)

/-- The walk over the whole bundle with that judge. -/
theorem trace_chain_no :
    (walk.chain payload.certificate payload.bundle).trace
        (fun _ _ => false) 0
      = ([⟨anchor.issuer.question inner.certificate, false⟩],
          .error (.chainBroken 1)) := by
  have hends := Walk.chain_of_refusesEntry refusesEntry
    payload.certificate []
  rw [List.append_nil] at hends
  exact trace_eq_iff.2 ⟨hends, rfl, trivial⟩

end SmallChain

/-- The small chain's payload is read in the reduced mode as if there
were nothing but zeros in the places that are passed over. And when the
certificate after the root is found not to be signed in full mode, the
enclave's own certificate has not been looked at. -/
theorem Statement.trace_read_unread_smallChain :
    (read (SmallChain.walk.inMode .identityLinkage) .any
          SmallChain.payload.write).trace (fun _ _ => true) 0
        = (read (SmallChain.walk.inMode .identityLinkage) .any
            SmallChain.blank.write).trace (fun _ _ => false) 1
      ∧ (SmallChain.walk.chain SmallChain.payload.certificate
            SmallChain.payload.bundle).trace (fun _ _ => false) 0
          = ([⟨SmallChain.anchor.issuer.question
                SmallChain.inner.certificate, false⟩],
              .error (.chainBroken 1))
      ∧ (SmallChain.walk.RefusesFraming SmallChain.payload.bundle
            [⟨SmallChain.anchor.issuer.question
              SmallChain.inner.certificate, false⟩] (.chainBroken 1)
          ∨ (∃ b : Bundle, ∃ more,
            SmallChain.payload.bundle = b.write ++ more
              ∧ SmallChain.walk.RefusesOwn SmallChain.payload.certificate b
                [⟨SmallChain.anchor.issuer.question
                  SmallChain.inner.certificate, false⟩] (.chainBroken 1))
          ∨ ∃ b : Beginning, ∃ more,
            SmallChain.payload.bundle = b.write ++ more
              ∧ SmallChain.walk.RefusesEntry b
                [⟨SmallChain.anchor.issuer.question
                  SmallChain.inner.certificate, false⟩] (.chainBroken 1)
              ∧ ∀ certificate' more' hfits,
                (read SmallChain.walk .any
                    ((SmallChain.payload.withCertificate certificate'
                        hfits).write
                      ++ Field.cabundle.spelling
                      ++ (b.write ++ more'))).trace (fun _ _ => false) 0
                  = ([⟨SmallChain.anchor.issuer.question
                        SmallChain.inner.certificate, false⟩],
                      .error (.chainBroken 1))) :=
  ⟨(trace_read_unread _ _).1 rfl _ _ SmallChain.sameButUnread_blank _ _ _ _,
    SmallChain.trace_chain_no,
    (trace_read_unread SmallChain.walk .any).2 rfl
      SmallChain.payload.toFrontParts _ _ _ _ _ rfl
      SmallChain.trace_chain_no⟩

end Attestation
