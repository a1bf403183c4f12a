/-
Lengths as DER writes them: one byte below 128, or 81 and one byte, or
82 and two bytes. The two longer forms are accepted for short lengths
too. Reading a length always moves a reader on, which is what makes a
search through lengths end.
-/
import Attestation.Bytes.Reader

namespace Attestation

namespace Reader

/-- A length, and the reader after it. -/
def length? (r : Reader) : Option (Nat × Reader) :=
  match r.byte? with
  | none => none
  | some (b, r) =>
    if b < 0x80 then some (b.toNat, r)
    else if b = 0x81 then r.nat? 1
    else if b = 0x82 then r.nat? 2
    else none

/-- A length below 128 in its one-byte form, and the reader after
it. -/
def shortLength? (r : Reader) : Option (Nat × Reader) :=
  match r.byte? with
  | none => none
  | some (b, r) => if b < 0x80 then some (b.toNat, r) else none

theorem take?_shorter {r r' : Reader} {n : Nat} {data : Bytes}
    (h : r.take? n = some (data, r')) :
    r'.rest.length ≤ r.rest.length := by
  rw [(take?_eq_some_iff.1 h).1, List.length_append]
  omega

theorem byte?_shorter {r r' : Reader} {b : UInt8}
    (h : r.byte? = some (b, r')) :
    r'.rest.length < r.rest.length := by
  rw [(byte?_eq_some_iff.1 h).1, List.length_cons]
  omega

theorem nat?_shorter {r r' : Reader} {width n : Nat}
    (h : r.nat? width = some (n, r')) :
    r'.rest.length ≤ r.rest.length := by
  unfold nat? at h
  obtain ⟨⟨data, r''⟩, ht, he⟩ := Option.map_eq_some_iff.1 h
  cases he
  exact take?_shorter ht

theorem length?_shorter {r r' : Reader} {n : Nat}
    (h : r.length? = some (n, r')) :
    r'.rest.length < r.rest.length := by
  unfold length? at h
  split at h
  · cases h
  · rename_i b r₁ hb
    have hlt := byte?_shorter hb
    split at h
    · cases h
      exact hlt
    · split at h
      · have := nat?_shorter h
        omega
      · split at h
        · have := nat?_shorter h
          omega
        · cases h

end Reader

end Attestation
