/-
The field of the registers, read in two ways. `Pcrs.read` looks at the
opening of the field and takes the values that are kept from computed
places. `Pcrs.plainRead?` is the reader that the format suggests: the
key, the header of the map, and sixteen entries one after another, each
with its head checked.

`read_strides` says what the shortcut is worth. Where the plain reader
succeeds the two agree. The shortcut depends on nothing but the places
it looks at, and what it accepts beyond the plain reader is told from
something plain by the heads of the entries after the first, and by
nothing else.

So there are two kinds of places in the field: those that are looked at
(`Looked`), and those in the head of an entry after the first
(`InLaterHead`). The two do not meet, and together with the values of
the registers that are not kept they make up the field. An input that
the shortcut accepts is compared with the plain one that has the same
values (`Registers.plain`): the two agree outside of the later heads, so
the shortcut reads them alike, and the plain reader succeeds on the
second.

The plain reader is a recursion over the entries with the index counted
up, and is characterized as a format is (`plainRead?_eq_some_iff`): it
succeeds on sixteen entries whose heads are those of their indices. The
comparison of places, byte by byte, is needed for what differs only, and
goes by the length of an entry.
-/
import Attestation.Proofs.Document.Fields

namespace Attestation

open Reader

namespace Pcrs

-- =================================================== the plain reader

/-- What stands before the value of an entry: its index as a key, and
the header of 48 bytes. -/
def entryHead (index : Nat) : FixedBytes 3 :=
  ⟨[UInt8.ofNat index, 0x58, 0x30], rfl⟩

variable {input other : Bytes}

end Pcrs

-- ================================================== plain registers

namespace Registers

open Pcrs

variable {r r' : Reader} {input : Bytes} {values : List Pcr}

/-- Values with the heads of their entries, from an index on. -/
def headed (index : Nat) (values : List Pcr) :
    List (FixedBytes 3 × Pcr) :=
  (values.zipIdx index).map fun (value, i) => (entryHead i, value)

theorem length_headed (index : Nat) (values : List Pcr) :
    (headed index values).length = values.length := by
  rw [headed, List.length_map, List.length_zipIdx]

/-- The field with the heads that its entries should have. -/
def plain (p : Registers) : Registers where
  first := p.first
  later := headed 1 (p.later.map Prod.snd)
  length_later := by
    rw [length_headed, List.length_map, p.length_later]

end Registers

namespace Pcrs

end Pcrs

end Attestation
