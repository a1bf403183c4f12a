/-
The values of a payload's fields on a machine, and the rule on the age
of a document. Lengths are differences of bytes where they are in a
header, registers are ranges at products of their numbers, and the age
is a difference of times.

Each difference has a comparison before it, and the registers lie in a
field whose length was compared first. So what has to be shown is that
the comparison is the right one, in each place: that a header which is
taken for a length is at least the one it is subtracted from, that the
last register ends inside the field, and that an age is taken of a time
that is not in the future.

The stock policies on age are listed (`AgePolicy`), since a machine has
to carry out the rule as well; a rule that is just some function has no
operations that could fail. `accept_eq` says that the listed policies
carry out the rules of the library. Their sums stop at the ends of the
range by intent, and are taken as they stand.

The table of the fields holds no key for the registers, which look at
their own, and this is the one place where the machine's table and the
library's openings differ (`tableKey`, `expect_pcrs`).
-/
import Attestation.Proofs.Document.Fields
import Attestation.Proofs.Machine.Cursor
import Attestation.Trust.Acceptance

namespace Attestation

namespace Machine

-- ========================================================== policies

/-- A ready-made rule on the age of a document, as a machine works it
out. -/
inductive AgePolicy where
  | any
  | maxAge (age skew : UInt64)

namespace AgePolicy

/-- The rule that a policy stands for. -/
def rule : AgePolicy → AgeRule
  | any => AgeRule.any
  | maxAge age skew => AgeRule.maxAge age skew

/-- The product stops at the largest word. The differences do not. -/
def accept (policy : AgePolicy) (timestamp now : UInt64) : Checked Bool :=
  match policy with
  | any => return true
  | maxAge age skew => do
    let nowMillis := Saturating.mul now 1000
    if nowMillis < timestamp then
      let ahead ← sub timestamp.toNat nowMillis.toNat
      return ahead ≤ skew.toNat
    else
      let behind ← sub nowMillis.toNat timestamp.toNat
      return behind ≤ age.toNat

/-- The comparison before each difference keeps it above zero. -/
theorem accept_eq (policy : AgePolicy) (timestamp now : UInt64) :
    policy.accept timestamp now = .ok (policy.rule timestamp now) := by
  cases policy with
  | any => rfl
  | maxAge age skew =>
    simp only [accept, rule, AgeRule.maxAge]
    split
    · rename_i hahead
      have hle := UInt64.le_of_lt hahead
      rw [sub_eq (UInt64.le_iff_toNat_le.1 hle), ok_bind,
        ← UInt64.toNat_sub_of_le _ _ hle]
      simp only [UInt64.le_iff_toNat_le]
      rfl
    · rename_i hbehind
      have hle := UInt64.not_lt.1 hbehind
      rw [sub_eq (UInt64.le_iff_toNat_le.1 hle), ok_bind,
        ← UInt64.toNat_sub_of_le _ _ hle]
      simp only [UInt64.le_iff_toNat_le]
      rfl

end AgePolicy

-- ====================================================== field values

/-- The bytes that are matched before the value is read. The registers
are read with their key. -/
def tableKey : Field → Bytes
  | .pcrs => []
  | f => f.opening

def expect (f : Field) (c : Cursor) : Run Cursor :=
  want (c.eat (tableKey f)) do
    let remaining ← c.remaining
    if remaining < (tableKey f).length then
      let rest ← c.rest
      if rest.isPrefixOf (tableKey f) then c.missing
      else return .unexpectedField (.field f)
    else
      return .unexpectedField (.field f)

def textValue (f : Field) (c : Cursor) : Run (String × Cursor) := do
  let (length, c) ← want c.byteNat c.missing
  let (raw, c) ← want (c.take length) c.missing
  match Utf8.decode raw with
  | .ok text => return (String.ofList text, c)
  | .error _ =>
    liftM (Except.error (.unexpectedField (.field f)) :
      Except Refusal (String × Cursor))

def timeValue (policy : AgePolicy) (now : UInt64) (c : Cursor) :
    Run (UInt64 × Cursor) := do
  let (n, c) ← want (c.nat 8) c.missing
  let accepted ← policy.accept (UInt64.ofNat n) now
  require (accepted = true) (Refusal.staleTimestamp (UInt64.ofNat n) now)
  return (UInt64.ofNat n, c)

/-- The value of a register in the field that `input` begins with. -/
def register (input : Bytes) (slot : Slot) : Checked Pcr := do
  let offset ← mul slot.index Pcrs.stride
  let start ← add Field.pcrs.opening.length offset
  let stop ← add start 48
  let value ← slice input start stop
  copy 48 value

def registers (input : Bytes) : Run (Pcrs × Nat) := do
  require (Field.pcrs.opening.isPrefixOf input = true)
    (Refusal.unexpectedField (.field .pcrs))
  require (Pcrs.fieldLength ≤ input.length)
    (Refusal.trailingOrMissingData Pcrs.fieldLength input.length)
  let pcr0 ← register input .pcr0
  let pcr1 ← register input .pcr1
  let pcr2 ← register input .pcr2
  let pcr3 ← register input .pcr3
  let pcr4 ← register input .pcr4
  let pcr8 ← register input .pcr8
  return (⟨pcr0, pcr1, pcr2, pcr3, pcr4, pcr8⟩, Pcrs.fieldLength)

def certificateValue (c : Cursor) : Run (Bytes × Cursor) := do
  let (length, c) ← want (c.nat 2) c.missing
  want (c.take length) c.missing

/-- The length that the header of a byte string begins. -/
def lengthValue (f : Field) (header : UInt8) (c : Cursor) :
    Run (Nat × Cursor) :=
  if 0x40 ≤ header ∧ header ≤ 0x57 then do
    let length ← sub header.toNat 0x40
    return (length, c)
  else if header = 0x58 then want c.byteNat c.missing
  else if header = 0x59 then want (c.nat 2) c.missing
  else
    liftM (Except.error (.unexpectedField (.field f)) :
      Except Refusal (Nat × Cursor))

def optionalValue (f : Field) (c : Cursor) :
    Run (Option Bytes × Cursor) := do
  let (header, c) ← want c.byte c.missing
  if header = 0xf6 then return (none, c)
  let (length, c) ← lengthValue f header c
  let (data, c) ← want (c.take length) c.missing
  return (some data, c)

-- =============================================== values without faults

open Cursor

variable {α β : Type} {data : Bytes} {c : Cursor} {r : Reader} {f : Field}

theorem length_opening_le (f : Field) : f.opening.length ≤ 65536 := by
  cases f <;> decide

/-- An opening that is not there is missing or something else, and
finding out which has a fault in neither case. -/
theorem expect_agrees (h : Tracks data c r) (hkey : tableKey f = f.opening) :
    Agrees (Tracks data) (expect f c) (Statement.expect f r) := by
  unfold expect Statement.expect
  rw [hkey]
  refine Agrees.want (h.eat (length_opening_le f)) ?_
  rw [h.remaining, ok_bind]
  by_cases hshort : r.remaining < f.opening.length
  · rw [if_pos hshort, h.rest, ok_bind, h.missing]
    by_cases hbegins : r.rest.isPrefixOf f.opening = true
    · rw [if_pos hbegins, if_pos ⟨hshort, hbegins⟩]
    · rw [if_neg hbegins, if_neg fun hboth => hbegins hboth.2]
      rfl
  · rw [if_neg hshort, if_neg fun hboth => hshort hboth.1]
    rfl

/-- For the registers the table asks for nothing. -/
theorem expect_pcrs (h : Tracks data c r) :
    Agrees (Tracks data) (expect .pcrs c) (.ok r) := by
  have hplain : demand (r.pass? []) (Refusal.unexpectedField (.field .pcrs))
      = .ok r := Reader.demand_pass?_iff.2 (.refl r)
  rw [← hplain]
  refine Agrees.want (h.eat (Nat.zero_le _)) ?_
  rw [h.remaining]
  rfl

/-- What the module's name holds after the opening. -/
theorem textValue_agrees (h : Tracks data c r) :
    Agrees (With fun _ => Tracks data) (textValue f c) (do
      let (length, r) ← demand (r.nat? 1) r.missing
      let (raw, r) ← demand (r.take? length) r.missing
      match Utf8.decode raw with
      | .ok text => return (String.ofList text, r)
      | .error _ => .error (.unexpectedField (.field f))) := by
  unfold textValue
  refine (Agrees.want h.byteNat h.missing).bind_with fun length c r h => ?_
  refine (Agrees.want (h.take length) h.missing).bind_with
    fun raw c r h => ?_
  dsimp only
  cases Utf8.decode raw with
  | ok text => exact .ok ⟨rfl, h.2⟩
  | error position => exact .error _

/-- The time is read and judged. -/
def judgedTime (accepts : AgeRule) (now : UInt64) (r : Reader) :
    Except Refusal (UInt64 × Reader) := do
  let (n, r) ← demand (r.nat? 8) r.missing
  require (accepts (UInt64.ofNat n) now = true)
    (.staleTimestamp (UInt64.ofNat n) now)
  return (UInt64.ofNat n, r)

/-- The time is read and judged alike. -/
theorem timeValue_agrees (policy : AgePolicy) (now : UInt64)
    (h : Tracks data c r) :
    Agrees (With fun _ => Tracks data) (timeValue policy now c)
      (judgedTime policy.rule now r) := by
  unfold timeValue judgedTime
  refine (Agrees.want (h.nat (by omega)) h.missing).bind_with
    fun n c r h => ?_
  refine Agrees.check (policy.accept_eq _ now) ?_
  exact Agrees.plain_bind fun _ _ => .ok ⟨rfl, h⟩

/-- Where the field is there as a whole, so is each of its
registers. -/
theorem register_eq {input : Bytes} (hlength : Pcrs.fieldLength ≤ input.length)
    (slot : Slot) :
    register input slot
      = .ok (FixedBytes.window input (Pcrs.valueStart slot) 48
          (Nat.le_trans (Pcrs.valueStart_add_le slot) hlength)) := by
  have hplace := Nat.le_trans (Pcrs.valueStart_add_le slot) hlength
  have hstop := Pcrs.valueStart_add_le slot
  have hfield : Pcrs.fieldLength < wordSize := by decide
  have hstart : Pcrs.valueStart slot = 9 + slot.index * Pcrs.stride := rfl
  have hopening : Field.pcrs.opening.length = 9 := by decide
  unfold register
  rw [mul_eq (by omega), ok_bind, hopening, add_eq (by omega), ok_bind,
    ← hstart, add_eq (by omega), ok_bind,
    slice_eq (Nat.le_add_right _ _) hplace, ok_bind, Nat.add_sub_cancel_left]
  exact copy_eq (FixedBytes.window input (Pcrs.valueStart slot) 48 hplace)

/-- The registers are cut out of places that there are. -/
theorem registers_agrees (input : Bytes) :
    Agrees (fun p q => p = q ∧ p.2 ≤ input.length) (registers input)
      (Pcrs.read input) := by
  unfold registers Pcrs.read
  by_cases hopening : Field.pcrs.opening.isPrefixOf input = true
  · by_cases hlength : Pcrs.fieldLength ≤ input.length
    · rw [if_pos hopening, dif_pos hlength]
      refine Agrees.given (a := ()) (require_eq_ok_iff.2 hopening) ?_
      refine Agrees.given (a := ()) (require_eq_ok_iff.2 hlength) ?_
      refine Agrees.check (register_eq hlength .pcr0) ?_
      refine Agrees.check (register_eq hlength .pcr1) ?_
      refine Agrees.check (register_eq hlength .pcr2) ?_
      refine Agrees.check (register_eq hlength .pcr3) ?_
      refine Agrees.check (register_eq hlength .pcr4) ?_
      refine Agrees.check (register_eq hlength .pcr8) ?_
      exact .ok ⟨rfl, hlength⟩
    · rw [if_pos hopening, dif_neg hlength]
      refine Agrees.given (a := ()) (require_eq_ok_iff.2 hopening) ?_
      rw [require, if_neg hlength]
      exact .error _
  · rw [require, if_neg hopening, if_neg hopening]
    exact .error _

/-- What the enclave's certificate holds after the opening. -/
theorem certificateValue_agrees (h : Tracks data c r) :
    Agrees (With (Taken data)) (certificateValue c) (do
      let (length, r) ← demand (r.nat? 2) r.missing
      demand (r.take? length) r.missing) := by
  unfold certificateValue
  refine (Agrees.want (h.nat (by omega)) h.missing).bind_with
    fun length c r h => ?_
  exact Agrees.want (h.take length) h.missing

/-- The length of an optional value is read alike, in each of its forms.
-/
theorem lengthValue_agrees (header : UInt8) (h : Tracks data c r) :
    Agrees (With fun _ => Tracks data) (lengthValue f header c)
      (lengthAfter f header r) := by
  unfold lengthValue lengthAfter
  split
  · rename_i hinline
    have hle : 0x40 ≤ header.toNat := UInt8.le_iff_toNat_le.1 hinline.1
    exact Agrees.check (sub_eq hle) (.ok ⟨rfl, h⟩)
  split
  · exact Agrees.want h.byteNat h.missing
  split
  · exact Agrees.want (h.nat (by omega)) h.missing
  · exact .error _

/-- What an optional field holds after the opening. -/
theorem optionalValue_agrees (h : Tracks data c r) :
    Agrees (With fun _ => Tracks data) (optionalValue f c) (do
      let (header, r) ← demand r.byte? r.missing
      if header = 0xf6 then return (none, r)
      let (length, r) ← lengthAfter f header r
      let (data, r) ← demand (r.take? length) r.missing
      return (some data, r)) := by
  unfold optionalValue
  refine (Agrees.want h.byte h.missing).bind_with fun header c r h => ?_
  dsimp only
  split
  · exact .ok ⟨rfl, h⟩
  · refine (lengthValue_agrees header h).bind_with fun length c r h => ?_
    refine (Agrees.want (h.take length) h.missing).bind_with
      fun _ c r h => ?_
    exact .ok ⟨rfl, h.2⟩

end Machine

end Attestation
