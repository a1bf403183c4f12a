/-
What is printed about an accepted document: its content as JSON, byte
strings in hexadecimal, and, for an inspection, the registers once more
by their indexes and the mode that was used.
-/
import Attestation.Document.Statement.Basic
import Attestation.Text.Json
import Attestation.Trust.Setup

namespace Attestation

namespace Report

/-- A byte string as a JSON text. -/
def bytes (data : Bytes) : Json :=
  .text (Hex.text data)

/-- An optional byte string: null if it is absent. -/
def optionalBytes : Option Bytes → Json
  | none => .null
  | some data => bytes data

def registers (pcrs : Pcrs) : Json :=
  .object (pcrs.toList.map fun (index, value) =>
    ("pcr" ++ toString index, bytes value.toList))

/-- The registers by their indexes. -/
def registerMap (pcrs : Pcrs) : Json :=
  .object (pcrs.toList.map fun (index, value) =>
    (toString index, bytes value.toList))

/-- The fields of a report on an accepted document. -/
def fields (s : Statement) : List (String × Json) :=
  [("module_id", .text s.moduleId),
   ("timestamp", .number s.timestamp.toNat),
   ("pcrs", registers s.pcrs),
   ("enclave_key", bytes s.enclaveKey.toList),
   ("public_key", optionalBytes s.publicKey),
   ("user_data", optionalBytes s.userData),
   ("nonce", optionalBytes s.nonce)]

def verification (s : Statement) : Json :=
  .object (fields s)

def inspection (s : Statement) (mode : TrustMode) : Json :=
  .object (fields s ++
    [("pcr_map", registerMap s.pcrs),
     ("chain_verification", .text mode.name)])

end Report

end Attestation
