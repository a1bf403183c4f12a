/-
The platform configuration registers in a payload. The field is a map
of sixteen entries, each a one-byte key, the header 58 30 and 48 bytes,
so that the entries lie 51 bytes apart and a register is found by its
index alone. Six of the sixteen are kept.

Only the field's opening and its length are checked: the headers of the
entries after the first are passed over unread.
-/
import Attestation.Bytes.Fixed
import Attestation.Refusal.Basic

namespace Attestation

abbrev Pcr := FixedBytes 48

/-- A register that is kept: 0 the enclave image, 1 the kernel and boot
code, 2 the application, 3 the role of the parent instance, 4 the
parent instance, 8 the certificate that signed the image. -/
inductive Slot where
  | pcr0
  | pcr1
  | pcr2
  | pcr3
  | pcr4
  | pcr8
deriving DecidableEq

namespace Slot

/-- The registers that are kept, in ascending order. -/
def all : List Slot :=
  [pcr0, pcr1, pcr2, pcr3, pcr4, pcr8]

def index : Slot → Nat
  | pcr0 => 0
  | pcr1 => 1
  | pcr2 => 2
  | pcr3 => 3
  | pcr4 => 4
  | pcr8 => 8

/-- The kept register with an index. -/
def ofIndex? (index : Nat) : Option Slot :=
  all.find? fun slot => slot.index == index

end Slot

/-- The values of the registers that are kept. -/
structure Pcrs where
  pcr0 : Pcr
  pcr1 : Pcr
  pcr2 : Pcr
  pcr3 : Pcr
  pcr4 : Pcr
  pcr8 : Pcr
deriving DecidableEq

namespace Pcrs

def value (pcrs : Pcrs) : Slot → Pcr
  | .pcr0 => pcrs.pcr0
  | .pcr1 => pcrs.pcr1
  | .pcr2 => pcrs.pcr2
  | .pcr3 => pcrs.pcr3
  | .pcr4 => pcrs.pcr4
  | .pcr8 => pcrs.pcr8

def ofSlots (value : Slot → Pcr) : Pcrs :=
  ⟨value .pcr0, value .pcr1, value .pcr2, value .pcr3, value .pcr4,
   value .pcr8⟩

/-- The value of the register with an index, if it is kept. -/
def get? (pcrs : Pcrs) (index : Nat) : Option Pcr :=
  (Slot.ofIndex? index).map pcrs.value

/-- The registers with their indexes, in ascending order. -/
def toList (pcrs : Pcrs) : List (Nat × Pcr) :=
  Slot.all.map fun slot => (slot.index, pcrs.value slot)

-- ======================================================= extraction

/-- The number of bytes from one entry to the next. -/
def stride : Nat := 51

/-- The length of the whole field, its key included: the opening, with
the head of the first entry, fifteen strides and one value. -/
def fieldLength : Nat :=
  9 + 15 * stride + 48

/-- Where the value of a register starts in the field. -/
def valueStart (slot : Slot) : Nat :=
  9 + slot.index * stride

theorem valueStart_add_le (slot : Slot) :
    valueStart slot + 48 ≤ fieldLength := by
  cases slot <;> decide

/-- The kept registers of the field that `input` begins with, and the
length of the field. -/
def read (input : Bytes) : Except Refusal (Pcrs × Nat) :=
  if Field.pcrs.opening.isPrefixOf input then
    if h : fieldLength ≤ input.length then
      let value slot := FixedBytes.window input (valueStart slot) 48
        (Nat.le_trans (valueStart_add_le slot) h)
      .ok (ofSlots value, fieldLength)
    else
      .error (.trailingOrMissingData fieldLength input.length)
  else
    .error (.unexpectedField (.field .pcrs))

end Pcrs

end Attestation
