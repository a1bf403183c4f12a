/-
Reader operations as data, so that a whole run of them is one value. A
run keeps the reader an operation leaves: the next one when the
operation can be done in full, and the same one when it cannot.
-/
import Attestation.Bytes.Reader

namespace Attestation

namespace Reader

/-- One operation on a reader. -/
inductive Operation where
  | peek
  | byte
  | number (width : Nat)
  | take (count : Nat)
  | fixed (size : Nat)
  | skip (count : Nat)
  | pass (word : Bytes)
  | rest
deriving DecidableEq

/-- What an operation answers. -/
inductive Answer where
  | refused
  | passed
  | number (value : Nat)
  | bytes (data : Bytes)
deriving DecidableEq

/-- Carries out one operation and gives its answer and the reader after
it. -/
def perform (r : Reader) : Operation → Answer × Reader
  | .peek =>
    match r.peek? with
    | some b => (.number b.toNat, r)
    | none => (.refused, r)
  | .byte =>
    match r.byte? with
    | some (b, r') => (.number b.toNat, r')
    | none => (.refused, r)
  | .number width =>
    match r.nat? width with
    | some (n, r') => (.number n, r')
    | none => (.refused, r)
  | .take count =>
    match r.take? count with
    | some (data, r') => (.bytes data, r')
    | none => (.refused, r)
  | .fixed size =>
    match r.fixed? size with
    | some (value, r') => (.bytes value.toList, r')
    | none => (.refused, r)
  | .skip count =>
    match r.skip? count with
    | some r' => (.passed, r')
    | none => (.refused, r)
  | .pass word =>
    match r.pass? word with
    | some r' => (.passed, r')
    | none => (.refused, r)
  | .rest => (.bytes r.rest, r)

/-- Carries out operations in order, with the answer to each and the
reader after it. -/
def performAll (r : Reader) : List Operation → List (Answer × Reader)
  | [] => []
  | op :: ops =>
    let after := r.perform op
    after :: performAll after.2 ops

end Reader

end Attestation
