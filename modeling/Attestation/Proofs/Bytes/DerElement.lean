/-
DER elements as they are written: a tag, a length in one of three forms,
and the content. The form is part of a written element, because a short
content may be written in a longer form, and readers of certificates
accept that; DER proper allows the shortest form only. That the length
fits the form is a proof field, so every written element is a readable
one, and a layout can be put together from elements without side
conditions on their sizes.

`length?_iff_passes` says that the reader accepts exactly the three
forms. It goes by the first byte: below 128 that byte is the length
itself, and 129 and 130 announce one and two bytes of it. Any other
first byte is a fourth form that nobody writes here, and is refused.

Element and form are used by the layout of certificates and of the
signatures in them, where a read element is always one that passes over
`Element.write`. The short element beside it is for the places at which
the reader takes a single byte for the length and nothing else. That
lengths are read alike from any place in a byte string (`length?_shift`)
is what lets an element deep inside a certificate be studied on its own.
-/
import Attestation.Bytes.DerLength
import Attestation.Proofs.Bytes.Passage

namespace Attestation

namespace Der

/-- How a length is written: in one byte, in one byte after 81, or in
two bytes after 82. -/
inductive LengthForm where
  | byte
  | one
  | two
deriving DecidableEq

namespace LengthForm

/-- The first length that a form is too small for. -/
def bound : LengthForm → Nat
  | .byte => 128
  | .one => 256
  | .two => 65536

/-- A length in a form. -/
def write : LengthForm → Nat → Bytes
  | .byte, n => [UInt8.ofNat n]
  | .one, n => 0x81 :: Bytes.ofNat 1 n
  | .two, n => 0x82 :: Bytes.ofNat 2 n

end LengthForm

/-- The content of an element, and the form of its length. -/
structure Element where
  form : LengthForm
  content : Bytes
  fits : content.length < form.bound

/-- An element with a tag. -/
def Element.write (e : Element) (tag : UInt8) : Bytes :=
  tag :: e.form.write e.content.length ++ e.content

/-- The content of an element whose length is written in one byte. -/
structure ShortElement where
  content : Bytes
  fits : content.length < 128

/-- An element with a tag and a length of one byte. -/
def ShortElement.write (e : ShortElement) (tag : UInt8) : Bytes :=
  tag :: UInt8.ofNat e.content.length :: e.content

end Der

namespace Reader

variable {r r' : Reader} {n : Nat}

/-- A byte below 128, read as a number. -/
private theorem passes_small_iff :
    (∃ b : UInt8, b < 0x80 ∧ b.toNat = n ∧ r.Passes [b] r')
      ↔ n < 128 ∧ r.Passes [UInt8.ofNat n] r' := by
  constructor
  · intro h
    obtain ⟨b, hb, hn, h⟩ := h
    subst hn
    rw [UInt8.ofNat_toNat]
    exact ⟨hb, h⟩
  · intro h
    obtain ⟨hn, h⟩ := h
    have htoNat : (UInt8.ofNat n).toNat = n := by
      rw [UInt8.toNat_ofNat']
      omega
    refine ⟨UInt8.ofNat n, ?_, htoNat, h⟩
    rw [UInt8.lt_iff_toNat_lt, htoNat]
    exact hn

/-- A length of the shortest form is one byte, and below 128. -/
theorem shortLength?_iff_passes :
    r.shortLength? = some (n, r')
      ↔ n < 128 ∧ r.Passes [UInt8.ofNat n] r' := by
  rw [← passes_small_iff]
  unfold shortLength?
  constructor
  · intro h
    split at h
    · cases h
    · rename_i b r₁ hb
      split at h
      · rename_i hlt
        cases h
        exact ⟨b, hlt, rfl, byte?_iff_passes.1 hb⟩
      · cases h
  · intro h
    obtain ⟨b, hlt, hn, h⟩ := h
    rw [byte?_iff_passes.2 h]
    simp [hlt, hn]

/-- A length is read exactly from the forms that it fits. -/
theorem length?_iff_passes :
    r.length? = some (n, r')
      ↔ ∃ form : Der.LengthForm,
          n < form.bound ∧ r.Passes (form.write n) r' := by
  unfold length?
  constructor
  · intro h
    split at h
    · cases h
    · rename_i b r₁ hb
      have hfirst := byte?_iff_passes.1 hb
      split at h
      · rename_i hlt
        cases h
        exact ⟨.byte, passes_small_iff.1 ⟨b, hlt, rfl, hfirst⟩⟩
      · split at h
        · rename_i he
          obtain ⟨hn, hrest⟩ := nat?_iff_passes.1 h
          subst he
          exact ⟨.one, hn, hfirst.trans hrest⟩
        · split at h
          · rename_i he
            obtain ⟨hn, hrest⟩ := nat?_iff_passes.1 h
            subst he
            exact ⟨.two, hn, hfirst.trans hrest⟩
          · cases h
  · intro h
    obtain ⟨form, hn, h⟩ := h
    cases form with
    | byte =>
      obtain ⟨b, hlt, he, hb⟩ := passes_small_iff.2 ⟨hn, h⟩
      rw [byte?_iff_passes.2 hb]
      simp [hlt, he]
    | one =>
      obtain ⟨r₁, hb, hrest⟩ := passes_cons_iff.1 h
      rw [byte?_iff_passes.2 hb]
      exact nat?_iff_passes.2 ⟨hn, hrest⟩
    | two =>
      obtain ⟨r₁, hb, hrest⟩ := passes_cons_iff.1 h
      rw [byte?_iff_passes.2 hb]
      exact nat?_iff_passes.2 ⟨hn, hrest⟩

/-- A length does not depend on how much was read before it. -/
theorem length?_shift (r : Reader) (count : Nat) :
    (r.shift count).length?
      = r.length?.map fun (n, r') => (n, r'.shift count) := by
  unfold length?
  rw [byte?_shift]
  cases r.byte? with
  | none => rfl
  | some read =>
    obtain ⟨b, r₁⟩ := read
    simp only [Option.map_some, nat?_shift]
    split
    · rfl
    · split
      · rfl
      · split
        · rfl
        · rfl

theorem demand_shortLength?_iff {ε : Type} {reason : ε} :
    demand r.shortLength? reason = .ok (n, r')
      ↔ n < 128 ∧ r.Passes [UInt8.ofNat n] r' :=
  demand_eq_ok_iff.trans shortLength?_iff_passes

/-- A length, with a reason for what is none. -/
theorem demand_length?_iff {ε : Type} {reason : ε} :
    demand r.length? reason = .ok (n, r')
      ↔ ∃ form : Der.LengthForm,
          n < form.bound ∧ r.Passes (form.write n) r' :=
  demand_eq_ok_iff.trans length?_iff_passes

end Reader

end Attestation
