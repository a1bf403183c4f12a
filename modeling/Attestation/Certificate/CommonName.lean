/-
The common name in a distinguished name. The name is a row of SETs, and
the first one that opens with the object identifier of the common name
holds it; the others are passed over by their declared lengths. Neither
the declared length of the SEQUENCE around the identifier nor the kind
of text that the name has is looked at.
-/
import Attestation.Bytes.DerLength
import Attestation.Refusal.Basic

namespace Attestation

namespace CommonName

/-- The object identifier 2.5.4.3 with its tag and length. -/
def identifier : Bytes :=
  [0x06, 0x03, 0x55, 0x04, 0x03]

/-- The content of the next SET of a name, and the reader after it. -/
def nextSet (r : Reader) : Except Refusal (Bytes × Reader) := do
  let r ← demand (r.pass? [0x31]) (.notACertificate .nameNotSet)
  let (length, r) ← demand r.length? (.notACertificate .nameLength)
  demand (r.take? length) (.notACertificate .nameCut)

/-- The reader after the identifier of the common name, if the content
of a SET opens with it. -/
def opening? (content : Bytes) : Option Reader := do
  let r ← (Reader.ofBytes content).pass? [0x30]
  let (_, r) ← r.length?
  r.pass? identifier

/-- The text after the identifier: a tag of any kind, a length, and
that many bytes, after which anything may follow. -/
def textAfter (r : Reader) : Except Refusal Bytes := do
  let (_, r) ← demand r.byte? (.notACertificate .commonNameType)
  let (length, r) ← demand r.length? (.notACertificate .commonNameLength)
  let (text, _) ← demand (r.take? length)
    (.notACertificate .commonNameCut)
  return text

theorem nextSet_shorter {r r' : Reader} {content : Bytes}
    (h : nextSet r = .ok (content, r')) :
    r'.rest.length < r.rest.length := by
  unfold nextSet at h
  obtain ⟨r₁, h₁, h⟩ := bind_eq_ok_iff.1 h
  obtain ⟨⟨length, r₂⟩, h₂, h⟩ := bind_eq_ok_iff.1 h
  have hset := (Reader.pass?_eq_some_iff.1 (demand_eq_ok_iff.1 h₁)).1
  have hlength := Reader.length?_shorter (demand_eq_ok_iff.1 h₂)
  have htake := Reader.take?_shorter (demand_eq_ok_iff.1 h)
  rw [hset, List.length_append]
  omega

/-- Looks for the common name in the SETs that are unread. -/
def search (r : Reader) : Except Refusal Bytes :=
  if r.isEmpty then .error .commonNameNotFound
  else
    match _h : nextSet r with
    | .error refusal => .error refusal
    | .ok (content, next) =>
      match opening? content with
      | some r => textAfter r
      | none => search next
termination_by r.rest.length
decreasing_by exact nextSet_shorter _h

/-- The common name in the content of a distinguished name. -/
def find (name : Bytes) : Except Refusal Bytes :=
  search (Reader.ofBytes name)

end CommonName

end Attestation
