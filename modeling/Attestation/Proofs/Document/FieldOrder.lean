/-
The order of the fields. A payload is its map header and nine fields,
and each field is known by the bytes that it opens with. Reading goes
wrong at the first place where something else stands, and the reason
names the field that was expected there: what comes before that place
has been read by then, and what comes after it is not looked at.

`r.Departs field order f` says that bytes depart from a row of fields at
`f`: they hold the fields before it, and then neither its opening nor a
beginning of it. The beginning has to be excluded because a reader that
finds a field cut off complains about the cut and not about the field;
where the bytes end inside a field is the matter of another module.

The reading of each part of the payload is followed along such a row
(`read_of_departs`), by taking one field after another off the front of
both. A part that is read whole leaves the departure to the next one
(`Departs.of_append`), so the three parts of a payload can be dealt with
one at a time, each in the order of its own fields.

No two fields open alike, not even in their first two bytes
(`eq_of_take_two`, by going through all pairs), so where one field
stands every other finds something else. A row of the fields in another
order therefore departs from the right one where the two first differ,
which is what is said about permutations (`trace_read_field_order`).
Orders are compared as lists, and the payload in any order is the
concatenation of its fields; that these are the fields of a payload
which was read takes that a payload has one bundle and the same parts
before it, which is where the ends of payloads come in.
-/
import Attestation.Proofs.Document.Extent
import Mathlib.Data.List.Nodup

namespace Attestation

open Reader Inquiry

-- ==================================================== other fields

namespace Reader

/-- Something else than a field is to be read: not its opening, and not
a beginning of it that the bytes end with. -/
structure IsOther (r : Reader) (f : Field) : Prop where
  begins : ¬f.spelling <+: r.rest
  cut : ¬r.rest <+: f.spelling

/-- The unread bytes hold the fields of a row up to `f`, and something
else in its place. -/
def Departs (r : Reader) (field : Field → Bytes) :
    (order : List Field) → (f : Field) → Prop
  | [], _ => False
  | g :: later, f =>
    (g = f ∧ r.IsOther f)
      ∨ ∃ r', r.Passes (field g) r' ∧ r'.Departs field later f

variable {r r' : Reader} {field : Field → Bytes} {f : Field}
  {order more : List Field}

/-- Bytes that pass over the fields before one, and then hold something
else, depart there. -/
theorem departs_of_passes (h : r.Passes (order.flatMap field) r')
    (hother : r'.IsOther f) (later : List Field) :
    r.Departs field (order ++ f :: later) f := by
  induction order generalizing r with
  | nil =>
    rw [h.unique (Passes.refl r)] at hother
    exact Or.inl ⟨rfl, hother⟩
  | cons g order ih =>
    rw [List.flatMap_cons] at h
    obtain ⟨r₁, hfirst, hrest⟩ := passes_append_iff.1 h
    exact Or.inr ⟨r₁, hfirst, ih hrest⟩

/-- A departure from two rows is one from the first, or one from the
second after the first was passed. -/
theorem Departs.of_append (h : r.Departs field (order ++ more) f) :
    r.Departs field order f
      ∨ ∃ r', r.Passes (order.flatMap field) r'
        ∧ r'.Departs field more f := by
  induction order generalizing r with
  | nil => exact Or.inr ⟨r, .refl r, h⟩
  | cons g order ih =>
    rcases h with h | ⟨r₁, hfirst, h⟩
    · exact Or.inl (Or.inl h)
    · rcases ih h with h | ⟨r₂, hpassed, h⟩
      · exact Or.inl (Or.inr ⟨r₁, hfirst, h⟩)
      · refine Or.inr ⟨r₂, ?_, h⟩
        rw [List.flatMap_cons]
        exact hfirst.trans hpassed

end Reader

-- ================================================ openings are apart

namespace Field

/-- No two fields open with the same two bytes. -/
theorem eq_of_take_two {f g : Field}
    (h : f.spelling.take 2 = g.spelling.take 2) : f = g := by
  have hnodup : (all.map fun f => f.spelling.take 2).Nodup := by decide
  have hmem (f : Field) : f ∈ all := by
    cases f <;> decide
  exact List.inj_on_of_nodup_map hnodup (hmem f) (hmem g) h

/-- What begins with an opening begins with its first two bytes. -/
theorem take_two_of_begins {f : Field} {data : Bytes}
    (h : f.spelling <+: data) : data.take 2 = f.spelling.take 2 := by
  obtain ⟨more, hdata⟩ := h
  have hlength : 2 ≤ f.spelling.length := by
    cases f <;> decide
  rw [← hdata, List.take_append_of_le_length hlength]

/-- Where a field stands, every other field finds something else. -/
theorem isOther_of_begins {f g : Field} (hne : f ≠ g) {r : Reader}
    (h : g.spelling <+: r.rest) : r.IsOther f where
  begins := by
    intro hf
    exact hne (eq_of_take_two
      ((take_two_of_begins hf).symm.trans (take_two_of_begins h)))
  cut := by
    intro hf
    exact hne (eq_of_take_two (take_two_of_begins (h.trans hf)))

end Field

-- =========================================== fields that are missed

/-- The rule refuses because something else stands where a field should
begin. -/
def Misses {α : Type} (f : Field) (x : Except Refusal α) : Prop :=
  x = .error (.unexpectedField (.field f))

namespace Misses

variable {α β : Type} {f : Field} {x : Except Refusal α}
  {next : α → Except Refusal β}

/-- A rule that misses a field at its first step misses it. -/
theorem bind (h : Misses f x) : Misses f (x >>= next) := by
  rw [Misses, h]
  rfl

/-- A step that succeeds leaves it to the next ones. -/
theorem after {value : α} (hx : x = .ok value)
    (h : Misses f (next value)) : Misses f (x >>= next) := by
  rw [hx]
  exact h

theorem require {condition : Prop} [Decidable condition]
    {reason : Refusal} {next : Unit → Except Refusal β}
    (hcondition : condition) (h : Misses f (next ())) :
    Misses f (Attestation.require condition reason >>= next) :=
  .after (require_eq_ok_iff.2 hcondition) h

end Misses

namespace Statement

variable {r r' : Reader} {f : Field}

/-- Where something else stands the expected field is missed. -/
theorem expect_of_other (h : r.IsOther f) : Misses f (expect f r) := by
  have hpass : r.pass? f.spelling = none := by
    rw [pass?, if_neg (mt List.isPrefixOf_iff_prefix.1 h.begins)]
  have hcut : ¬(r.remaining < f.spelling.length
      ∧ r.rest.isPrefixOf f.spelling = true) :=
    fun hshort => h.cut (List.isPrefixOf_iff_prefix.1 hshort.2)
  rw [Misses, expect, f.opening_eq, hpass, if_neg hcut]
  rfl

theorem readPcrs_of_other (h : r.IsOther .pcrs) :
    Misses .pcrs (readPcrs r) := by
  refine .bind ?_
  rw [Misses, Pcrs.read, Field.opening_eq,
    if_neg (mt List.isPrefixOf_iff_prefix.1 h.begins)]

theorem readOptional_of_other (h : r.IsOther f) :
    Misses f (readOptional f r) := by
  rw [readOptional_eq]
  exact .bind (expect_of_other h)

end Statement

-- =================================================== rows of fields

namespace Payload

/-- A field of the payload with everything that belongs to it. -/
def field (p : Payload) : Field → Bytes
  | .moduleId => moduleIdBytes p.moduleId
  | .digest => Field.digest.spelling
  | .timestamp => timestampBytes p.timestamp
  | .pcrs => p.registers.write
  | .certificate => certificateBytes p.certificate
  | .cabundle => Field.cabundle.spelling ++ p.bundle
  | .publicKey => optionalBytes .publicKey p.publicKey
  | .userData => optionalBytes .userData p.userData
  | .nonce => optionalBytes .nonce p.nonce

/-- The map header, and fields of the payload in some order. -/
def inOrder (p : Payload) (order : List Field) : Bytes :=
  mapHeaderBytes ++ order.flatMap p.field

variable (p : Payload)

/-- In the right order the fields make up the payload. -/
theorem inOrder_all : p.inOrder Field.all = p.write := by
  simp [inOrder, Field.all, field, write, FrontParts.write,
    BackParts.write]

theorem inOrder_front :
    p.inOrder [.moduleId, .digest, .timestamp, .pcrs, .certificate]
      = p.toFrontParts.write := by
  simp [inOrder, field, FrontParts.write]

/-- Every field begins with its opening. -/
theorem spelling_prefix_field (f : Field) : f.spelling <+: p.field f := by
  have happend (opening more rest : Bytes) :
      opening <+: opening ++ more ++ rest := by
    rw [List.append_assoc]
    exact List.prefix_append _ _
  have hoptional (f : Field) (v? : Option ByteString) :
      f.spelling <+: optionalBytes f v? := by
    cases v? <;> exact List.prefix_append _ _
  cases f with
  | moduleId => exact happend _ _ _
  | digest => exact List.prefix_rfl
  | timestamp => exact List.prefix_append _ _
  | pcrs => exact happend _ _ _
  | certificate => exact happend _ _ _
  | cabundle => exact List.prefix_append _ _
  | publicKey => exact hoptional _ _
  | userData => exact hoptional _ _
  | nonce => exact hoptional _ _

end Payload

namespace Statement

variable {w : Walk} {accepts : AgeRule} {calls : List Call}
  {key : PublicKey} {p : Payload} {r r' : Reader} {f : Field}
  {data : Bytes}

/-- A departure before the bundle. -/
theorem readFront_of_departs {now : UInt64}
    (haccepts : accepts p.timestamp now = true)
    (hheader : r.Passes mapHeaderBytes r')
    (h : r'.Departs p.field
      [.moduleId, .digest, .timestamp, .pcrs, .certificate] f) :
    Misses f (readFront accepts now r) := by
  refine .after (demand_pass?_iff.2 hheader) ?_
  rcases h with ⟨rfl, h⟩ | ⟨r₁, hmodule, h⟩
  · exact .bind (.bind (expect_of_other h))
  refine .after (readModuleId_iff_passes.2 ⟨p.moduleId_fits, hmodule⟩) ?_
  rcases h with ⟨rfl, h⟩ | ⟨r₂, hdigest, h⟩
  · exact .bind (expect_of_other h)
  refine .after (expect_iff_passes.2 hdigest) ?_
  rcases h with ⟨rfl, h⟩ | ⟨r₃, htime, h⟩
  · exact .bind (.bind (expect_of_other h))
  refine .after (readTimestamp_iff_passes.2 htime) ?_
  refine .require haccepts ?_
  rcases h with ⟨rfl, h⟩ | ⟨r₄, hpcrs, h⟩
  · exact .bind (readPcrs_of_other h)
  refine .after (readPcrs_iff_passes.2 ⟨p.registers, rfl, hpcrs⟩) ?_
  rcases h with ⟨rfl, h⟩ | ⟨r₅, -, h⟩
  · exact .bind (.bind (expect_of_other h))
  exact h.elim

/-- A departure after the bundle. -/
theorem readBack_of_departs
    (h : r.Departs p.field [.publicKey, .userData, .nonce] f) :
    Misses f (readBack r) := by
  rcases h with ⟨rfl, h⟩ | ⟨r₁, hkey, h⟩
  · exact .bind (readOptional_of_other h)
  refine .after (readOptional_iff_passes.2 ⟨p.publicKey, rfl, hkey⟩) ?_
  rcases h with ⟨rfl, h⟩ | ⟨r₂, hdata, h⟩
  · exact .bind (readOptional_of_other h)
  refine .after (readOptional_iff_passes.2 ⟨p.userData, rfl, hdata⟩) ?_
  rcases h with ⟨rfl, h⟩ | ⟨r₃, -, h⟩
  · exact .bind (readOptional_of_other h)
  exact h.elim

/-- A departure anywhere is reported as the field departed from. The
questions asked by then are none before the bundle, and all of them
after it. -/
theorem read_of_departs (haccepts : accepts p.timestamp w.now = true)
    (hchain : (w.chain p.certificate p.bundle).Ends calls
      (.ok (key, p.bundle.length)))
    (hheader : (ofBytes data).Passes mapHeaderBytes r)
    (h : r.Departs p.field Field.all f) :
    ∃ asked, asked <+: calls
      ∧ (read w accepts data).Ends asked
          (.error (.unexpectedField (.field f))) := by
  have hparts : Field.all
      = [.moduleId, .digest, .timestamp, .pcrs, .certificate]
        ++ .cabundle :: [.publicKey, .userData, .nonce] := rfl
  rw [hparts] at h
  rcases h.of_append with h | ⟨r₁, hfront, h⟩
  · have hmissed := readFront_of_departs haccepts hheader h
    exact ⟨[], List.nil_prefix,
      ends_ofExcept_bind_iff.2 (Or.inl ⟨_, hmissed, rfl, rfl⟩)⟩
  have hfront : readFront accepts w.now (ofBytes data)
      = .ok (p.front, r₁) := by
    refine readFront_iff_passes.2 ⟨p.toFrontParts, rfl, haccepts, ?_⟩
    rw [← p.inOrder_front]
    exact hheader.trans hfront
  rcases h with ⟨rfl, h⟩ | ⟨r₂, hbundle, h⟩
  · have hmissed : (readBundle w p.certificate r₁).Ends []
        (.error (.unexpectedField (.field .cabundle))) :=
      ends_ofExcept_bind_iff.2
        (Or.inl ⟨_, expect_of_other h, rfl, rfl⟩)
    exact ⟨[], List.nil_prefix,
      ends_ofExcept_bind_iff.2 (Or.inr ⟨_, hfront, hmissed.bind_error⟩)⟩
  · have hmissed := readBack_of_departs h
    refine ⟨calls, List.prefix_rfl, ?_⟩
    refine ends_ofExcept_bind_iff.2 (Or.inr ⟨_, hfront, ?_⟩)
    rw [← List.append_nil calls]
    refine Ends.bind_ok
      (readBundle_ends_ok_iff.2 ⟨p.bundle, hbundle, hchain⟩) ?_
    exact ends_ofExcept_bind_iff.2 (Or.inl ⟨_, hmissed, rfl, rfl⟩)

end Statement

-- ============================================== another order

/-- Two different lists of one length have a first difference. -/
theorem exists_first_difference {α : Type} {l₁ l₂ : List α}
    (hlength : l₁.length = l₂.length) (hne : l₁ ≠ l₂) :
    ∃ shared a b later later', l₁ = shared ++ a :: later
      ∧ l₂ = shared ++ b :: later' ∧ a ≠ b := by
  induction l₁ generalizing l₂ with
  | nil => exact absurd (List.length_eq_zero_iff.1 hlength.symm).symm hne
  | cons a later ih =>
    cases l₂ with
    | nil => cases hlength
    | cons b later' =>
      by_cases hab : a = b
      · subst hab
        have hlater : later ≠ later' := fun h => hne (by rw [h])
        obtain ⟨shared, c, d, rest, rest', h₁, h₂, hcd⟩ :=
          ih (Nat.succ.inj hlength) hlater
        exact ⟨a :: shared, c, d, rest, rest', by rw [h₁, List.cons_append],
          by rw [h₂, List.cons_append], hcd⟩
      · exact ⟨[], a, b, later, later', rfl, rfl, hab⟩

namespace Statement

variable {w : Walk} {accepts : AgeRule} {calls : List Call}

/-- If a payload is read, the time that is written in it is accepted, and
the bundle in it is walked. -/
theorem chain_of_parts {p : Payload} {b : Bundle} {s : Statement}
    (hbundle : p.bundle = b.write)
    (h : (read w accepts p.write).Ends calls (.ok s)) :
    accepts p.timestamp w.now = true
      ∧ ∃ key, (w.chain p.certificate p.bundle).Ends calls
          (.ok (key, p.bundle.length)) := by
  obtain ⟨q, key, hwrite, haccepts, hchain, -⟩ := read_ends_ok_iff.1 h
  obtain ⟨c, hc⟩ := exists_bundle_of_chain hchain
  obtain ⟨hfront, hsame⟩ := Payload.parts_eq_of_write hbundle hc hwrite
  have htime : p.timestamp = q.timestamp := congrArg Front.timestamp hfront
  have hown : p.certificate = q.certificate :=
    congrArg Front.certificate hfront
  rw [htime, hown, hsame]
  exact ⟨haccepts, key, hchain⟩

/-- The order of the fields is not negotiable, and the reason for a
refusal names the first field that is not where it belongs. A payload
that is read has nine fields, of which one is a bundle. With anything
else from the beginning of a field on (but for a beginning of its
opening) it is refused with that field as the one expected; and so are
its nine fields in any other order, with the field that belongs where
the order first goes wrong. -/
theorem trace_read_field_order {answer : Nat → Query → Bool} {count : Nat}
    {payload : Bytes} {s : Statement}
    (h : (read w accepts payload).trace answer count = (calls, .ok s)) :
    (∃ p : Payload, ∃ b : Bundle, payload = p.inOrder Field.all
        ∧ p.bundle = b.write)
      ∧ ∀ (p : Payload) (b : Bundle), payload = p.inOrder Field.all →
        p.bundle = b.write →
          (∀ before f after, Field.all = before ++ f :: after →
            ∀ other : Bytes, ¬f.spelling <+: other →
              ¬other <+: f.spelling →
                ∃ asked, asked <+: calls
                  ∧ (read w accepts (p.inOrder before ++ other)).trace
                      answer count
                    = (asked, .error (.unexpectedField (.field f))))
          ∧ ∀ order : List Field, order.Perm Field.all →
            order ≠ Field.all →
              ∃ shared f g later later', Field.all = shared ++ f :: later
                ∧ order = shared ++ g :: later' ∧ f ≠ g
                ∧ ∃ asked, asked <+: calls
                  ∧ (read w accepts (p.inOrder order)).trace answer count
                    = (asked, .error (.unexpectedField (.field f))) := by
  obtain ⟨hends, hanswered⟩ := trace_eq_iff.1 h
  constructor
  · obtain ⟨p, key, hpayload, -, hchain, -⟩ := read_ends_ok_iff.1 hends
    obtain ⟨b, hb⟩ := exists_bundle_of_chain hchain
    exact ⟨p, b, by rw [hpayload, p.inOrder_all], hb⟩
  intro p b hpayload hb
  rw [hpayload, p.inOrder_all] at hends
  obtain ⟨haccepts, key, hchain⟩ := chain_of_parts hb hends
  -- both parts are departures, one at a time
  have hother {before after : List Field} {f : Field} {other : Bytes}
      (hsplit : Field.all = before ++ f :: after)
      (h : ∀ r : Reader, r.rest = other → r.IsOther f) :
      ∃ asked, asked <+: calls
        ∧ (read w accepts (p.inOrder before ++ other)).trace answer count
          = (asked, .error (.unexpectedField (.field f))) := by
    obtain ⟨r', hpasses, hrest⟩ := exists_passes_ofBytes
      (rfl : p.inOrder before ++ other = _)
    obtain ⟨r, hheader, hfields⟩ := passes_append_iff.1 hpasses
    have hdeparts := departs_of_passes hfields (h r' hrest) after
    rw [← hsplit] at hdeparts
    obtain ⟨asked, ⟨later, hcalls⟩, hread⟩ :=
      read_of_departs haccepts hchain hheader hdeparts
    rw [← hcalls] at hanswered
    exact ⟨asked, ⟨later, hcalls⟩,
      trace_eq_iff.2 ⟨hread, (answered_append_iff.1 hanswered).1⟩⟩
  constructor
  · intro before f after hsplit other hbegins hcut
    refine hother hsplit ?_
    rintro r rfl
    exact ⟨hbegins, hcut⟩
  · intro order hperm hne
    -- up to the first difference the fields are where they belong
    obtain ⟨shared, f, g, later, later', hall, horder, hfg⟩ :=
      exists_first_difference hperm.length_eq.symm hne.symm
    refine ⟨shared, f, g, later, later', hall, horder, hfg, ?_⟩
    have hwritten : p.inOrder order
        = p.inOrder shared ++ (p.field g ++ later'.flatMap p.field) := by
      rw [horder, Payload.inOrder, Payload.inOrder, List.flatMap_append,
        List.flatMap_cons, List.append_assoc]
    rw [hwritten]
    refine hother hall ?_
    rintro r hrest
    refine Field.isOther_of_begins hfg ?_
    rw [hrest]
    exact (p.spelling_prefix_field g).trans (List.prefix_append _ _)

/-- The small chain's payload with a zero in place of its first field,
and with its fields in the opposite order. -/
theorem trace_read_field_order_smallChain :
    (read SmallChain.walk .any SmallChain.payload.write).trace
          (fun _ _ => true) 0
        = (SmallChain.calls,
            .ok (SmallChain.payload.statement SmallChain.own.publicKey))
      ∧ (∃ asked, asked <+: SmallChain.calls
        ∧ (read SmallChain.walk .any
            (SmallChain.payload.inOrder [] ++ [0])).trace
              (fun _ _ => true) 0
          = (asked, .error (.unexpectedField (.field .moduleId))))
      ∧ ∃ shared f g later later', Field.all = shared ++ f :: later
        ∧ Field.all.reverse = shared ++ g :: later' ∧ f ≠ g
        ∧ ∃ asked, asked <+: SmallChain.calls
          ∧ (read SmallChain.walk .any
              (SmallChain.payload.inOrder Field.all.reverse)).trace
                (fun _ _ => true) 0
            = (asked, .error (.unexpectedField (.field f))) := by
  obtain ⟨hother, horder⟩ :=
    (trace_read_field_order SmallChain.trace_read).2 SmallChain.payload
      SmallChain.bundle SmallChain.payload.inOrder_all.symm rfl
  refine ⟨SmallChain.trace_read, ?_, ?_⟩
  · exact hother [] .moduleId _ rfl [0] (by decide) (by decide)
  · exact horder Field.all.reverse (List.reverse_perm _) (by decide)

end Statement

end Attestation
