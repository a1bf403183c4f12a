/-
The fields of a payload, one equivalence for each: reading a field
succeeds exactly on what the field's value is written as. A value may be
written in several ways, so what is written is data of its own:
`Registers` for the field of the registers, of which six values are kept
and most headers are not looked at, and `ByteString` for an optional
value, whose length has three forms.

The fixed bytes of a payload are spelled here, in hexadecimal, and
everything that is said about layouts is said with this spelling. A
reader looks for bytes that it computes from the names of the fields,
and that the two are the same is `Field.opening_eq`; there is one such
equation for each field, and none of the statements depends on how a
reader comes by its bytes.

The registers are the one field that is not read from front to back.
Their values are taken from computed places, so the equivalence is
proved through the sixteen entries that fill the field
(`take_drop_write`): what stands at the place of a value is that value,
and conversely any bytes of the right length are the entries that they
spell (`exists_write`). That nothing else about the field matters is the
point of another module.

An optional value is read through its header, which is a value by itself
if there is none, and otherwise stands for one of the forms of a length.
The cases of the header are separated once (`lengthAfter`), and each
form has a bound that says which lengths it is for; a length below two
bounds can be written in both forms, and a reader takes both.
-/
import Attestation.Document.Statement.Reading
import Attestation.Proofs.Bytes.Passage
import Attestation.Proofs.Text.Utf8

namespace Attestation

open Reader

-- ======================================================= the fixed bytes

/-- The header of a map of nine entries, which every payload begins
with. -/
def mapHeaderBytes : Bytes :=
  [0xa9]

/-- The bytes that each field begins with, one by one: the length and
the letters of its name, and what every value of the field begins
with. -/
def Field.spelling : Field → Bytes
  | .moduleId =>
    [0x69, 0x6d, 0x6f, 0x64, 0x75, 0x6c, 0x65, 0x5f, 0x69, 0x64, 0x78]
  | .digest =>
    [0x66, 0x64, 0x69, 0x67, 0x65, 0x73, 0x74,
     0x66, 0x53, 0x48, 0x41, 0x33, 0x38, 0x34]
  | .timestamp =>
    [0x69, 0x74, 0x69, 0x6d, 0x65, 0x73, 0x74, 0x61, 0x6d, 0x70, 0x1b]
  | .pcrs => [0x64, 0x70, 0x63, 0x72, 0x73, 0xb0, 0x00, 0x58, 0x30]
  | .certificate =>
    [0x6b, 0x63, 0x65, 0x72, 0x74, 0x69, 0x66, 0x69, 0x63, 0x61, 0x74,
     0x65, 0x59]
  | .cabundle => [0x68, 0x63, 0x61, 0x62, 0x75, 0x6e, 0x64, 0x6c, 0x65]
  | .publicKey =>
    [0x6a, 0x70, 0x75, 0x62, 0x6c, 0x69, 0x63, 0x5f, 0x6b, 0x65, 0x79]
  | .userData =>
    [0x69, 0x75, 0x73, 0x65, 0x72, 0x5f, 0x64, 0x61, 0x74, 0x61]
  | .nonce => [0x65, 0x6e, 0x6f, 0x6e, 0x63, 0x65]

/-- The reader looks for the same map header. -/
theorem mapHeader_eq : Statement.mapHeader = mapHeaderBytes :=
  rfl

/-- A reader looks for the bytes that are spelled here. -/
theorem Field.opening_eq (f : Field) : f.opening = f.spelling := by
  cases f <;> decide

-- =========================================================== registers

/-- The field of the registers: the value of the first, and each later
one behind three bytes that nobody looks at. -/
structure Registers where
  first : Pcr
  later : List (FixedBytes 3 × Pcr)
  length_later : later.length = 15

namespace Registers

/-- Values with the three bytes before each. -/
def spread (entries : List (FixedBytes 3 × Pcr)) : Bytes :=
  entries.flatMap fun entry => entry.1.toList ++ entry.2.toList

/-- The field. -/
def write (p : Registers) : Bytes :=
  Field.pcrs.spelling ++ p.first.toList ++ spread p.later

/-- The values of all sixteen registers. -/
def values (p : Registers) : List Pcr :=
  p.first :: p.later.map Prod.snd

theorem length_values (p : Registers) : p.values.length = 16 := by
  rw [values, List.length_cons, List.length_map, p.length_later]

theorem index_lt (p : Registers) (slot : Slot) :
    slot.index < p.values.length := by
  rw [p.length_values]
  cases slot <;> decide

/-- The registers that are kept. -/
def kept (p : Registers) : Pcrs :=
  .ofSlots fun slot => p.values.get ⟨slot.index, p.index_lt slot⟩

theorem spread_cons (entry : FixedBytes 3 × Pcr)
    (entries : List (FixedBytes 3 × Pcr)) :
    spread (entry :: entries)
      = entry.1.toList ++ (entry.2.toList ++ spread entries) := by
  rw [spread, List.flatMap_cons, List.append_assoc]
  rfl

/-- Every entry has three bytes of header and 48 of value. -/
theorem length_spread (entries : List (FixedBytes 3 × Pcr)) :
    (spread entries).length = 51 * entries.length := by
  induction entries with
  | nil => rfl
  | cons entry entries ih =>
    rw [spread_cons, List.length_append, List.length_append,
      entry.1.length_toList, entry.2.length_toList, List.length_cons, ih]
    omega

theorem length_write (p : Registers) :
    p.write.length = Pcrs.fieldLength := by
  rw [write, List.length_append, List.length_append, length_spread,
    p.first.length_toList, p.length_later]
  rfl

/-- The value of an entry stands three bytes after its start. -/
theorem take_drop_spread (entries : List (FixedBytes 3 × Pcr))
    (more : Bytes) {i : Nat} (h : i < entries.length) :
    ((spread entries ++ more).drop (51 * i + 3)).take 48
      = entries[i].2.toList := by
  induction entries generalizing i with
  | nil => cases h
  | cons entry entries ih =>
    rw [spread_cons]
    cases i with
    | zero =>
      rw [List.append_assoc, List.append_assoc,
        List.drop_left' entry.1.length_toList]
      exact List.take_left' entry.2.length_toList
    | succ i =>
      have hsplit : 51 * (i + 1) + 3
          = (entry.1.toList ++ entry.2.toList).length + (51 * i + 3) := by
        rw [List.length_append, entry.1.length_toList,
          entry.2.length_toList]
        omega
      rw [← List.append_assoc, List.append_assoc, hsplit,
        List.drop_length_add_append]
      exact ih (Nat.lt_of_succ_lt_succ h)

/-- Bytes of the right length can be taken for entries. -/
theorem exists_spread {n : Nat} {data : Bytes} (h : data.length = 51 * n) :
    ∃ entries, entries.length = n ∧ data = spread entries := by
  induction n generalizing data with
  | zero =>
    rw [List.length_eq_zero_iff] at h
    exact ⟨[], rfl, h⟩
  | succ n ih =>
    have hdrop : (data.drop 51).length = 51 * n := by
      rw [List.length_drop]
      omega
    obtain ⟨entries, hlen, hdata⟩ := ih hdrop
    let head : FixedBytes 3 := .window data 0 3 (by omega)
    let value : Pcr := .window data 3 48 (by omega)
    refine ⟨(head, value) :: entries, by rw [List.length_cons, hlen], ?_⟩
    have hentry : head.toList ++ value.toList = data.take 51 := by
      show (data.drop 0).take 3 ++ (data.drop 3).take 48 = data.take 51
      rw [List.drop_zero, ← List.take_add]
    rw [spread_cons, ← List.append_assoc, hentry, ← hdata,
      List.take_append_drop]

/-- The values stand at their places in the field. -/
theorem take_drop_write (p : Registers) (more : Bytes) {i : Nat}
    (h : i < p.values.length) :
    ((p.write ++ more).drop (9 + i * Pcrs.stride)).take 48
      = p.values[i].toList := by
  rw [write, List.append_assoc, List.append_assoc]
  cases i with
  | zero =>
    have hopening : Field.pcrs.spelling.length = 9 + 0 * Pcrs.stride := rfl
    rw [List.drop_left' hopening]
    exact List.take_left' p.first.length_toList
  | succ i =>
    have hlater : i < p.later.length := by
      rw [values, List.length_cons, List.length_map] at h
      exact Nat.lt_of_succ_lt_succ h
    have hsplit : 9 + (i + 1) * Pcrs.stride
        = (Field.pcrs.spelling ++ p.first.toList).length
          + (51 * i + 3) := by
      rw [List.length_append, p.first.length_toList]
      show 9 + (i + 1) * 51 = 9 + 48 + (51 * i + 3)
      omega
    rw [← List.append_assoc, hsplit, List.drop_length_add_append,
      take_drop_spread p.later more hlater]
    simp only [values, List.getElem_cons_succ, List.getElem_map]

/-- Bytes of the right length that begin like the field are one. -/
theorem exists_write {data : Bytes} (h : data.length = Pcrs.fieldLength)
    (hopening : Field.pcrs.spelling <+: data) :
    ∃ p : Registers, data = p.write := by
  obtain ⟨body, hbody⟩ := hopening
  have hlen : body.length = 48 + 51 * 15 := by
    rw [← hbody, List.length_append] at h
    have hopening : Field.pcrs.spelling.length = 9 := rfl
    have hfield : Pcrs.fieldLength = 9 + (48 + 51 * 15) := rfl
    omega
  have hdrop : (body.drop 48).length = 51 * 15 := by
    rw [List.length_drop, hlen, Nat.add_sub_cancel_left]
  obtain ⟨later, hlater, hspread⟩ := exists_spread hdrop
  let first : Pcr := .window body 0 48 (by omega)
  refine ⟨⟨first, later, hlater⟩, ?_⟩
  have hfirst : first.toList = body.take 48 := rfl
  rw [write, hfirst, ← hspread, List.append_assoc, List.take_append_drop,
    hbody]

/-- The kept registers are read from their places. -/
theorem ofSlots_window (p : Registers) (more : Bytes)
    (h : Pcrs.fieldLength ≤ (p.write ++ more).length) :
    Pcrs.ofSlots (fun slot =>
      FixedBytes.window (p.write ++ more) (Pcrs.valueStart slot) 48
        (Nat.le_trans (Pcrs.valueStart_add_le slot) h)) = p.kept := by
  unfold kept
  congr 1
  funext slot
  apply FixedBytes.ext
  exact p.take_drop_write more (p.index_lt slot)

/-- The registers are read from every input that begins with the
field. -/
theorem pcrs_read_eq_ok_iff {input : Bytes} {pcrs : Pcrs} {consumed : Nat} :
    Pcrs.read input = .ok (pcrs, consumed)
      ↔ consumed = Pcrs.fieldLength
        ∧ ∃ p : Registers, pcrs = p.kept ∧ p.write <+: input := by
  unfold Pcrs.read
  rw [Field.opening_eq]
  constructor
  · intro h
    split at h
    case isFalse => cases h
    case isTrue hopening =>
    split at h
    case isFalse => cases h
    case isTrue hlength =>
    cases h
    have htake : (input.take Pcrs.fieldLength).length
        = Pcrs.fieldLength := List.length_take_of_le hlength
    have hprefix : Field.pcrs.spelling <+: input.take Pcrs.fieldLength := by
      refine List.prefix_of_prefix_length_le
        (List.isPrefixOf_iff_prefix.1 hopening)
        (List.take_prefix _ _) ?_
      rw [htake]
      decide
    -- bytes of that length with that opening are a written field
    obtain ⟨p, hp⟩ := exists_write htake hprefix
    have hinput : input = p.write ++ input.drop Pcrs.fieldLength := by
      rw [← hp, List.take_append_drop]
    refine ⟨rfl, p, ?_, input.drop Pcrs.fieldLength, hinput.symm⟩
    have hwindow := p.ofSlots_window (input.drop Pcrs.fieldLength)
    rw [← hinput] at hwindow
    exact hwindow hlength
  · intro h
    obtain ⟨hconsumed, p, hpcrs, more, hinput⟩ := h
    have hopening : Field.pcrs.spelling.isPrefixOf input = true := by
      rw [List.isPrefixOf_iff_prefix, ← hinput, write, List.append_assoc,
        List.append_assoc]
      exact List.prefix_append _ _
    have hlength : Pcrs.fieldLength ≤ input.length := by
      rw [← hinput, List.length_append, p.length_write]
      exact Nat.le_add_right _ _
    rw [if_pos hopening, dif_pos hlength, hconsumed, hpcrs]
    have hwindow := p.ofSlots_window more
    rw [hinput] at hwindow
    rw [← hwindow hlength]

end Registers

variable {r r' : Reader}

/-- The registers are read where their field is written. -/
theorem readPcrs_iff_passes {pcrs : Pcrs} :
    Statement.readPcrs r = .ok (pcrs, r')
      ↔ ∃ p : Registers, pcrs = p.kept ∧ r.Passes p.write r' := by
  unfold Statement.readPcrs
  constructor
  · intro h
    obtain ⟨⟨pcrs', consumed⟩, hread, h⟩ := bind_eq_ok_iff.1 h
    obtain ⟨r₁, hskip, h⟩ := bind_eq_ok_iff.1 h
    cases h
    obtain ⟨hconsumed, p, hpcrs, more, hrest⟩ :=
      Registers.pcrs_read_eq_ok_iff.1 hread
    obtain ⟨data, hlen, hpasses⟩ := demand_skip?_iff.1 hskip
    have hsame : p.write = data := by
      rw [hpasses.rest_eq] at hrest
      refine (List.append_inj hrest ?_).1
      rw [hlen, hconsumed, p.length_write]
    exact ⟨p, hpcrs, by rw [hsame]; exact hpasses⟩
  · intro h
    obtain ⟨p, hpcrs, hpasses⟩ := h
    refine bind_eq_ok_iff.2 ⟨(pcrs, Pcrs.fieldLength), ?_, ?_⟩
    · exact Registers.pcrs_read_eq_ok_iff.2
        ⟨rfl, p, hpcrs, r'.rest, hpasses.rest_eq.symm⟩
    · exact bind_eq_ok_iff.2
        ⟨r', demand_skip?_iff.2 ⟨p.write, p.length_write, hpasses⟩, rfl⟩

-- ============================================== fields of one form

/-- An opening is passed over where it stands. -/
theorem expect_iff_passes {f : Field} :
    Statement.expect f r = .ok r' ↔ r.Passes f.spelling r' := by
  rw [← f.opening_eq]
  exact demand_pass?_iff

/-- The field of a module's name. -/
def moduleIdBytes (name : String) : Bytes :=
  Field.moduleId.spelling ++ Bytes.ofNat 1 (Utf8.encode name.toList).length
    ++ Utf8.encode name.toList

/-- A name is read where it is written, if a byte holds its length. -/
theorem readModuleId_iff_passes {name : String} :
    Statement.readModuleId r = .ok (name, r')
      ↔ (Utf8.encode name.toList).length < 256
        ∧ r.Passes (moduleIdBytes name) r' := by
  unfold Statement.readModuleId
  constructor
  · intro h
    obtain ⟨r₁, e₁, h⟩ := bind_eq_ok_iff.1 h
    obtain ⟨⟨n, r₂⟩, e₂, h⟩ := bind_eq_ok_iff.1 h
    obtain ⟨⟨raw, r₃⟩, e₃, h⟩ := bind_eq_ok_iff.1 h
    have hopening := expect_iff_passes.1 e₁
    obtain ⟨hn, hlength⟩ := demand_nat?_iff.1 e₂
    obtain ⟨hlen, hraw⟩ := demand_take?_iff.1 e₃
    simp only at h
    split at h
    case h_2 => cases h
    case h_1 text htext =>
      cases h
      rw [Utf8.decode_eq_ok_iff] at htext
      subst htext hlen
      rw [moduleIdBytes, String.toList_ofList]
      exact ⟨hn, (hopening.trans hlength).trans hraw⟩
  · intro h
    obtain ⟨hn, h⟩ := h
    obtain ⟨r₂, h, hraw⟩ := passes_append_iff.1 h
    obtain ⟨r₁, hopening, hlength⟩ := passes_append_iff.1 h
    refine bind_eq_ok_iff.2 ⟨r₁, expect_iff_passes.2 hopening, ?_⟩
    refine bind_eq_ok_iff.2 ⟨(_, r₂), demand_nat?_iff.2 ⟨hn, hlength⟩, ?_⟩
    refine bind_eq_ok_iff.2 ⟨(_, r'), demand_take?_iff.2 ⟨rfl, hraw⟩, ?_⟩
    simp only [Utf8.decode_eq_ok_iff.2 rfl, String.ofList_toList]
    rfl

/-- The field of the time. -/
def timestampBytes (t : UInt64) : Bytes :=
  Field.timestamp.spelling ++ Bytes.ofNat 8 t.toNat

/-- A time is read where its eight digits are written. -/
theorem readTimestamp_iff_passes {t : UInt64} :
    Statement.readTimestamp r = .ok (t, r')
      ↔ r.Passes (timestampBytes t) r' := by
  unfold Statement.readTimestamp
  constructor
  · intro h
    obtain ⟨r₁, e₁, h⟩ := bind_eq_ok_iff.1 h
    obtain ⟨⟨n, r₂⟩, e₂, h⟩ := bind_eq_ok_iff.1 h
    cases h
    obtain ⟨hn, hnumber⟩ := demand_nat?_iff.1 e₂
    have htoNat : (UInt64.ofNat n).toNat = n :=
      UInt64.toNat_ofNat_of_lt' hn
    rw [timestampBytes, htoNat]
    exact (expect_iff_passes.1 e₁).trans hnumber
  · intro h
    obtain ⟨r₁, hopening, hnumber⟩ := passes_append_iff.1 h
    refine bind_eq_ok_iff.2 ⟨r₁, expect_iff_passes.2 hopening, ?_⟩
    refine bind_eq_ok_iff.2 ⟨(t.toNat, r'),
      demand_nat?_iff.2 ⟨t.toNat_lt, hnumber⟩, ?_⟩
    show Except.ok (UInt64.ofNat t.toNat, r') = _
    rw [UInt64.ofNat_toNat]

/-- The field of the enclave's certificate. -/
def certificateBytes (der : Bytes) : Bytes :=
  Field.certificate.spelling ++ Bytes.ofNat 2 der.length ++ der

/-- A certificate is read where it is written, if two bytes hold its
length. -/
theorem readCertificate_iff_passes {der : Bytes} :
    Statement.readCertificate r = .ok (der, r')
      ↔ der.length < 65536 ∧ r.Passes (certificateBytes der) r' := by
  unfold Statement.readCertificate
  constructor
  · intro h
    obtain ⟨r₁, e₁, h⟩ := bind_eq_ok_iff.1 h
    obtain ⟨⟨n, r₂⟩, e₂, h⟩ := bind_eq_ok_iff.1 h
    obtain ⟨hn, hlength⟩ := demand_nat?_iff.1 e₂
    obtain ⟨hlen, hder⟩ := demand_take?_iff.1 h
    subst hlen
    exact ⟨hn, ((expect_iff_passes.1 e₁).trans hlength).trans hder⟩
  · intro h
    obtain ⟨hn, h⟩ := h
    obtain ⟨r₂, h, hder⟩ := passes_append_iff.1 h
    obtain ⟨r₁, hopening, hlength⟩ := passes_append_iff.1 h
    refine bind_eq_ok_iff.2 ⟨r₁, expect_iff_passes.2 hopening, ?_⟩
    refine bind_eq_ok_iff.2 ⟨(_, r₂), demand_nat?_iff.2 ⟨hn, hlength⟩, ?_⟩
    exact demand_take?_iff.2 ⟨rfl, hder⟩

-- ==================================================== optional fields

/-- How the length of a byte string is written: in the header, in one
byte, or in two bytes. -/
inductive ByteString.Form where
  | inline
  | one
  | two
deriving DecidableEq

namespace ByteString.Form

/-- The first length that a form is too small for. -/
def bound : Form → Nat
  | .inline => 24
  | .one => 256
  | .two => 65536

/-- The header with a length. -/
def write : Form → Nat → Bytes
  | .inline, n => [UInt8.ofNat (0x40 + n)]
  | .one, n => 0x58 :: Bytes.ofNat 1 n
  | .two, n => 0x59 :: Bytes.ofNat 2 n

end ByteString.Form

/-- A byte string, and the form of its length. A short one may have a
longer form than it needs. -/
structure ByteString where
  form : ByteString.Form
  content : Bytes
  fits : content.length < form.bound

/-- A byte string with its header. -/
def ByteString.write (v : ByteString) : Bytes :=
  v.form.write v.content.length ++ v.content

/-- The field of an optional byte string, which is null if absent. -/
def optionalBytes (f : Field) : Option ByteString → Bytes
  | none => f.spelling ++ [0xf6]
  | some v => f.spelling ++ v.write

/-- The length that a header begins, and the reader after it. -/
def lengthAfter (f : Field) (header : UInt8) (r : Reader) :
    Except Refusal (Nat × Reader) :=
  if 0x40 ≤ header ∧ header ≤ 0x57 then .ok (header.toNat - 0x40, r)
  else if header = 0x58 then demand (r.nat? 1) r.missing
  else if header = 0x59 then demand (r.nat? 2) r.missing
  else .error (.unexpectedField (.field f))

/-- The reading of an optional value, with the cases of its header put
together. -/
theorem readOptional_eq (f : Field) (r : Reader) :
    Statement.readOptional f r = (do
      let r ← Statement.expect f r
      let (header, r) ← demand r.byte? r.missing
      if header = 0xf6 then return (none, r)
      let (length, r) ← lengthAfter f header r
      let (data, r) ← demand (r.take? length) r.missing
      return (some data, r)) := by
  unfold Statement.readOptional lengthAfter
  congr 1
  funext r
  congr 1
  funext value
  obtain ⟨header, r⟩ := value
  simp only
  split
  · rfl
  split
  · rfl
  split
  · rfl
  split <;> rfl

/-- The headers that hold their length are those of the lengths below
24. -/
theorem inline_header_iff {header : UInt8} :
    0x40 ≤ header ∧ header ≤ 0x57
      ↔ ∃ n < 24, header = UInt8.ofNat (0x40 + n) := by
  rw [UInt8.le_iff_toNat_le, UInt8.le_iff_toNat_le]
  constructor
  · intro h
    obtain ⟨hlow, hhigh⟩ := h
    have hlow : 64 ≤ header.toNat := hlow
    have hhigh : header.toNat ≤ 87 := hhigh
    refine ⟨header.toNat - 64, ?_, ?_⟩
    · omega
    · rw [Nat.add_sub_cancel' hlow, UInt8.ofNat_toNat]
  · intro h
    obtain ⟨n, hn, hheader⟩ := h
    have htoNat : header.toNat = 64 + n := by
      rw [hheader, UInt8.toNat_ofNat']
      omega
    rw [htoNat]
    show 64 ≤ 64 + n ∧ 64 + n ≤ 87
    omega

/-- A header may have the length in it, and then it is found there. -/
theorem toNat_inline_header {n : Nat} (h : n < 24) :
    (UInt8.ofNat (0x40 + n)).toNat - 0x40 = n := by
  rw [UInt8.toNat_ofNat']
  omega

/-- A length is read after a header from the form that the header
begins. -/
theorem exists_form_of_lengthAfter {f : Field} {header : UInt8}
    {r₁ : Reader} {n : Nat} (hheader : r.Passes [header] r₁)
    (h : lengthAfter f header r₁ = .ok (n, r')) :
    ∃ form : ByteString.Form, n < form.bound
      ∧ r.Passes (form.write n) r' := by
  unfold lengthAfter at h
  split at h
  case isTrue hinline =>
    obtain ⟨n, hn, hsame⟩ := inline_header_iff.1 hinline
    subst hsame
    rw [toNat_inline_header hn] at h
    cases h
    exact ⟨.inline, hn, hheader⟩
  case isFalse =>
  split at h
  case isTrue hone =>
    obtain ⟨hn, hlength⟩ := demand_nat?_iff.1 h
    subst hone
    exact ⟨.one, hn, hheader.trans hlength⟩
  case isFalse =>
  split at h
  case isTrue htwo =>
    obtain ⟨hn, hlength⟩ := demand_nat?_iff.1 h
    subst htwo
    exact ⟨.two, hn, hheader.trans hlength⟩
  case isFalse => cases h

/-- Every form begins with a header that is not null. -/
theorem lengthAfter_of_form {f : Field} {form : ByteString.Form} {n : Nat}
    (hn : n < form.bound) (h : r.Passes (form.write n) r') :
    ∃ header r₁, r.Passes [header] r₁ ∧ header ≠ 0xf6
      ∧ lengthAfter f header r₁ = .ok (n, r') := by
  cases form with
  | inline =>
    have hinline := inline_header_iff.2 ⟨n, hn, rfl⟩
    refine ⟨UInt8.ofNat (0x40 + n), r', h, ?_, ?_⟩
    · intro hnull
      rw [hnull] at hinline
      exact absurd hinline.2 (by decide)
    · rw [lengthAfter, if_pos hinline, toNat_inline_header hn]
  | one =>
    obtain ⟨r₁, hheader, hlength⟩ := passes_cons_iff.1 h
    exact ⟨0x58, r₁, hheader, by decide, demand_nat?_iff.2 ⟨hn, hlength⟩⟩
  | two =>
    obtain ⟨r₁, hheader, hlength⟩ := passes_cons_iff.1 h
    exact ⟨0x59, r₁, hheader, by decide, demand_nat?_iff.2 ⟨hn, hlength⟩⟩

/-- An optional value is read where nothing or one of its forms is
written. -/
theorem readOptional_iff_passes {f : Field} {value? : Option Bytes} :
    Statement.readOptional f r = .ok (value?, r')
      ↔ ∃ v? : Option ByteString, value? = v?.map ByteString.content
          ∧ r.Passes (optionalBytes f v?) r' := by
  rw [readOptional_eq]
  constructor
  · intro h
    obtain ⟨r₁, e₁, h⟩ := bind_eq_ok_iff.1 h
    obtain ⟨⟨header, r₂⟩, e₂, h⟩ := bind_eq_ok_iff.1 h
    have hopening := expect_iff_passes.1 e₁
    have hheader := demand_byte?_iff.1 e₂
    by_cases hnull : header = 0xf6
    · subst hnull
      cases h
      exact ⟨none, rfl, hopening.trans hheader⟩
    · simp only [if_neg hnull] at h
      obtain ⟨⟨n, r₃⟩, e₃, h⟩ := bind_eq_ok_iff.1 h
      obtain ⟨⟨data, r₄⟩, e₄, h⟩ := bind_eq_ok_iff.1 h
      cases h
      obtain ⟨form, hn, hform⟩ := exists_form_of_lengthAfter hheader e₃
      obtain ⟨hlen, hdata⟩ := demand_take?_iff.1 e₄
      subst hlen
      exact ⟨some ⟨form, data, hn⟩, rfl,
        hopening.trans (hform.trans hdata)⟩
  · intro h
    obtain ⟨v?, hvalue, h⟩ := h
    subst hvalue
    cases v? with
    | none =>
      obtain ⟨r₁, hopening, hnull⟩ := passes_append_iff.1 h
      refine bind_eq_ok_iff.2 ⟨r₁, expect_iff_passes.2 hopening, ?_⟩
      exact bind_eq_ok_iff.2 ⟨(0xf6, r'), demand_byte?_iff.2 hnull, rfl⟩
    | some v =>
      obtain ⟨r₁, hopening, h⟩ := passes_append_iff.1 h
      obtain ⟨r₃, hform, hdata⟩ := passes_append_iff.1 h
      obtain ⟨header, r₂, hheader, hnull, hlength⟩ :=
        lengthAfter_of_form (f := f) v.fits hform
      refine bind_eq_ok_iff.2 ⟨r₁, expect_iff_passes.2 hopening, ?_⟩
      refine bind_eq_ok_iff.2
        ⟨(header, r₂), demand_byte?_iff.2 hheader, ?_⟩
      simp only [if_neg hnull]
      refine bind_eq_ok_iff.2 ⟨(_, r₃), hlength, ?_⟩
      exact bind_eq_ok_iff.2
        ⟨(v.content, r'), demand_take?_iff.2 ⟨rfl, hdata⟩, rfl⟩

end Attestation
