/-
The documents that can be taken apart are the ones that `assemble` puts
together, and taking them apart gives back what they were put together
from. No document is the beginning of another: one that is cut off is
refused for the part that the cut falls into (`read_of_endsIn`), and one
that goes on for what comes after its signature (`read_append`).

An envelope keeps the length of its payload twice, as the bytes that
announce it and as the payload that was read. The two agree
(`eq_lengthHeaderOf`), and that is what the signature relies on: what is
signed is put together from the announced bytes and not from the
payload's length. `toBeSigned` spells the signed array with the
payload's own length, in hexadecimal from the first byte on, and
`signedDigest_of_read` says that the digest that is checked is the
digest of it, for every document that can be taken apart. The digest is
computed over pieces that are never put together, and hashing in pieces
is the other half of that lemma.

The part that a cut falls into is one of five: the two fixed openings,
the announced length, the payload and the signature. Each has a fault of
its own, and `cutFault` assigns them to places. So a document that was
cut off is refused as such, and never taken for one of another shape;
this is not so for payloads, where the beginning of a field can be
mistaken for another field.
-/
import Attestation.Document.Envelope
import Attestation.Proofs.Bytes.Shortfall
import Attestation.Proofs.Hash.Pieces

namespace Attestation

namespace Envelope

open Reader

/-- The length header that a document has for a payload. -/
def lengthHeaderOf (payload : Bytes) : FixedBytes 2 :=
  .ofNat 2 payload.length

theorem toNat_lengthHeaderOf {payload : Bytes}
    (h : payload.length < 65536) :
    (lengthHeaderOf payload).toNat = payload.length :=
  Bytes.bigEndian_ofNat h

/-- A header that spells the length of a payload is the payload's. -/
theorem eq_lengthHeaderOf {header : FixedBytes 2} {payload : Bytes}
    (h : payload.length = header.toNat) :
    header = lengthHeaderOf payload := by
  apply FixedBytes.ext
  have hsame := Bytes.ofNat_bigEndian header.toList
  rw [header.length_toList] at hsame
  rw [← hsame, lengthHeaderOf, FixedBytes.ofNat, h]
  rfl

/-- A document is taken apart exactly when it is assembled from a payload
that is short enough and a signature. -/
theorem read_eq_ok_iff {document : Bytes} {e : Envelope} :
    read document = .ok e
      ↔ e.payload.length < 65536
        ∧ e.lengthHeader = lengthHeaderOf e.payload
        ∧ document = assemble e.payload e.signature := by
  unfold read
  constructor
  · intro h
    obtain ⟨r₁, e₁, h⟩ := bind_eq_ok_iff.1 h
    obtain ⟨⟨header, r₂⟩, e₂, h⟩ := bind_eq_ok_iff.1 h
    obtain ⟨⟨payload, r₃⟩, e₃, h⟩ := bind_eq_ok_iff.1 h
    obtain ⟨r₄, e₄, h⟩ := bind_eq_ok_iff.1 h
    obtain ⟨⟨signature, r₅⟩, e₅, h⟩ := bind_eq_ok_iff.1 h
    obtain ⟨_, e₆, h⟩ := bind_eq_ok_iff.1 h
    cases h
    have hopening := demand_pass?_iff.1 e₁
    have hheader := demand_fixed?_iff.1 e₂
    obtain ⟨hlen, hpayload⟩ := demand_take?_iff.1 e₃
    have hbetween := demand_pass?_iff.1 e₄
    have hsignature := demand_fixed?_iff.1 e₅
    have hend := isEmpty_iff.1 (require_eq_ok_iff.1 e₆)
    have hsame := eq_lengthHeaderOf hlen
    refine ⟨?_, hsame, ?_⟩
    · have hlt := Bytes.bigEndian_lt header.toList
      rw [header.length_toList] at hlt
      show payload.length < 65536
      rw [hlen]
      exact hlt
    · have hwhole := (((hopening.trans hheader).trans hpayload).trans
        hbetween).trans hsignature
      rw [hwhole.eq_append, hend, List.append_nil, hsame]
      rfl
  · intro h
    obtain ⟨hlt, hheader, hdocument⟩ := h
    have hstart : (ofBytes document).rest
        = assemble e.payload e.signature ++ [] := by
      rw [List.append_nil]
      exact hdocument
    obtain ⟨r₅, h, hend⟩ := exists_passes hstart
    obtain ⟨r₄, h, hsignature⟩ := passes_append_iff.1 h
    obtain ⟨r₃, h, hbetween⟩ := passes_append_iff.1 h
    obtain ⟨r₂, h, hpayload⟩ := passes_append_iff.1 h
    obtain ⟨r₁, hopening, hlength⟩ := passes_append_iff.1 h
    refine bind_eq_ok_iff.2 ⟨r₁, demand_pass?_iff.2 hopening, ?_⟩
    refine bind_eq_ok_iff.2 ⟨(lengthHeaderOf e.payload, r₂),
      demand_fixed?_iff.2 hlength, ?_⟩
    refine bind_eq_ok_iff.2 ⟨(e.payload, r₃),
      demand_take?_iff.2 ⟨(toNat_lengthHeaderOf hlt).symm, hpayload⟩, ?_⟩
    refine bind_eq_ok_iff.2 ⟨r₄, demand_pass?_iff.2 hbetween, ?_⟩
    refine bind_eq_ok_iff.2 ⟨(e.signature, r₅),
      demand_fixed?_iff.2 hsignature, ?_⟩
    refine bind_eq_ok_iff.2
      ⟨(), require_eq_ok_iff.2 (isEmpty_iff.2 hend), ?_⟩
    rw [← hheader]
    rfl

/-- What is put together can be taken apart. -/
theorem read_assemble {payload : Bytes} (h : payload.length < 65536)
    (signature : RawSignature) :
    read (assemble payload signature)
      = .ok ⟨lengthHeaderOf payload, payload, signature⟩ :=
  read_eq_ok_iff.2 ⟨h, rfl, rfl⟩

-- ====================================================== what is signed

/-- The bytes that a signature covers, one by one: the head of an array
of four, the text Signature1, the protected header, no further data, and
the payload behind its length in two bytes. -/
def toBeSigned (payload : Bytes) : Bytes :=
  [0x84, 0x6a, 0x53, 0x69, 0x67, 0x6e, 0x61, 0x74, 0x75, 0x72, 0x65, 0x31,
   0x44, 0xa1, 0x01, 0x38, 0x22, 0x40, 0x59]
    ++ Bytes.ofNat 2 payload.length ++ payload

/-- The signed array begins with these bytes. -/
theorem signedOpening_eq :
    signedOpening
      = [0x84, 0x6a, 0x53, 0x69, 0x67, 0x6e, 0x61, 0x74, 0x75, 0x72, 0x65,
         0x31, 0x44, 0xa1, 0x01, 0x38, 0x22, 0x40, 0x59] := by
  decide

/-- Where the length header is the payload's own, and in a document that
is taken apart it is, the signed bytes are those. -/
theorem signedBytes_of_header {e : Envelope}
    (h : e.lengthHeader = lengthHeaderOf e.payload) :
    e.signedBytes = toBeSigned e.payload := by
  rw [signedBytes, h, signedOpening_eq]
  rfl

/-- The digest is taken of three pieces that are never put together, and
is the digest of the whole. -/
theorem signedDigest_eq (e : Envelope) :
    e.signedDigest = sha384 e.signedBytes := by
  rw [signedDigest, sha384Pieces_eq]
  simp [signedBytes]

/-- What is checked of a document is the digest of the array around its
payload. -/
theorem signedDigest_of_read {document : Bytes} {e : Envelope}
    (h : read document = .ok e) :
    e.signedDigest = sha384 (toBeSigned e.payload) := by
  rw [signedDigest_eq, signedBytes_of_header (read_eq_ok_iff.1 h).2.1]

-- ================================================ too short or too long

/-- The fault of a document of which `n` bytes are left, for a payload
of `size` bytes: that of the part in which it ends. -/
def cutFault (size n : Nat) : EnvelopeFault :=
  if n < 8 then .header
  else if n < 10 then .payloadLength
  else if n < 10 + size then .payloadCut
  else if n < 12 + size then .signatureHeader
  else .signatureCut

variable {payload more cut : Bytes} {signature : RawSignature}

/-- A document that is cut off is refused for the part that the cut
falls into. -/
theorem read_of_endsIn (hsize : payload.length < 65536)
    (h : (ofBytes cut).EndsIn (assemble payload signature)) :
    read cut = .error (.malformedEnvelope
      (cutFault payload.length cut.length)) := by
  have hopens : opening.length = 8 := rfl
  have hlength : (Bytes.ofNat 2 payload.length).length = 2 :=
    Bytes.length_ofNat 2 _
  have hbefore : signatureHeader.length = 2 := rfl
  simp only [assemble, List.append_assoc] at h
  unfold read cutFault
  rcases endsIn_append_iff.1 h with h | ⟨r₁, hopening, h⟩
  · have hlt : cut.length < 8 := h.rest_length_lt
    rw [pass?_of_endsIn h, if_pos hlt]
    rfl
  rw [pass?_iff_passes.2 hopening]
  show (demand (r₁.fixed? 2) _ >>= _) = _
  rcases endsIn_append_iff.1 h with h | ⟨r₂, hheader, h⟩
  · obtain ⟨hle, hlt⟩ := h.length_of_passes hopening
    rw [fixed?_of_endsIn h hlength, if_neg (by omega), if_pos (by omega)]
    rfl
  have hlengthRead : r₁.fixed? 2 = some (lengthHeaderOf payload, r₂) :=
    fixed?_iff_passes.2 hheader
  rw [hlengthRead]
  show (demand (r₂.take? (lengthHeaderOf payload).toNat) _ >>= _) = _
  rw [toNat_lengthHeaderOf hsize]
  have hpassed := hopening.trans hheader
  rcases endsIn_append_iff.1 h with h | ⟨r₃, hpayload, h⟩
  · obtain ⟨hle, hlt⟩ := h.length_of_passes hpassed
    rw [List.length_append] at hle hlt
    rw [take?_of_endsIn h, if_neg (by omega), if_neg (by omega),
      if_pos (by omega)]
    rfl
  rw [take?_iff_passes.2 ⟨rfl, hpayload⟩]
  show (demand (r₃.pass? signatureHeader) _ >>= _) = _
  have hpassed := hpassed.trans hpayload
  rcases endsIn_append_iff.1 h with h | ⟨r₄, hbetween, h⟩
  · obtain ⟨hle, hlt⟩ := h.length_of_passes hpassed
    simp only [List.length_append] at hle hlt
    rw [pass?_of_endsIn h, if_neg (by omega), if_neg (by omega),
      if_neg (by omega), if_pos (by omega)]
    rfl
  rw [pass?_iff_passes.2 hbetween]
  show (demand (r₄.fixed? 96) _ >>= _) = _
  have hpassed := hpassed.trans hbetween
  obtain ⟨hle, -⟩ := h.length_of_passes hpassed
  simp only [List.length_append] at hle
  rw [fixed?_of_endsIn h signature.length_toList, if_neg (by omega),
    if_neg (by omega), if_neg (by omega), if_neg (by omega)]
  rfl

/-- A document that goes on after its signature is refused for what
comes after it. -/
theorem read_append (hsize : payload.length < 65536) (hmore : more ≠ []) :
    read (assemble payload signature ++ more)
      = .error (.malformedEnvelope .trailingBytes) := by
  have hstart : (ofBytes (assemble payload signature ++ more)).rest
      = assemble payload signature ++ more := rfl
  obtain ⟨r₅, h, hend⟩ := exists_passes hstart
  obtain ⟨r₄, h, hsignature⟩ := passes_append_iff.1 h
  obtain ⟨r₃, h, hbetween⟩ := passes_append_iff.1 h
  obtain ⟨r₂, h, hpayload⟩ := passes_append_iff.1 h
  obtain ⟨r₁, hopening, hlength⟩ := passes_append_iff.1 h
  have hleft : ¬r₅.isEmpty = true := by
    rw [Reader.isEmpty_iff, hend]
    exact hmore
  unfold read
  rw [pass?_iff_passes.2 hopening]
  show (demand (r₁.fixed? 2) _ >>= _) = _
  have hlengthRead : r₁.fixed? 2 = some (lengthHeaderOf payload, r₂) :=
    fixed?_iff_passes.2 hlength
  rw [hlengthRead]
  show (demand (r₂.take? (lengthHeaderOf payload).toNat) _ >>= _) = _
  rw [take?_iff_passes.2 ⟨(toNat_lengthHeaderOf hsize).symm, hpayload⟩]
  show (demand (r₃.pass? signatureHeader) _ >>= _) = _
  rw [pass?_iff_passes.2 hbetween]
  show (demand (r₄.fixed? 96) _ >>= _) = _
  rw [fixed?_iff_passes.2 hsignature]
  show (require _ _ >>= _) = _
  rw [require_bind, if_neg hleft]

/-- Reading and assembling are inverse to each other, whatever the
payload. What is read is what the eight opening bytes, the length in two
bytes, a payload of that length, the header of the signature and its 96
bytes make up, and every payload of at most 65535 bytes comes back out
of the document around it. Nothing that a document begins or that begins
with a document is one, and the fault tells where it ends. -/
theorem read_eq_ok_iff_assembled :
    (∀ document e, read document = .ok e
        ↔ e.payload.length ≤ 65535
          ∧ e.lengthHeader = .ofNat 2 e.payload.length
          ∧ document = [0x84, 0x44, 0xa1, 0x01, 0x38, 0x22, 0xa0, 0x59]
              ++ Bytes.ofNat 2 e.payload.length ++ e.payload
              ++ [0x58, 0x60] ++ e.signature.toList)
      ∧ (∀ payload signature, payload.length ≤ 65535 →
          read (assemble payload signature)
            = .ok ⟨.ofNat 2 payload.length, payload, signature⟩)
      ∧ ∀ document e, read document = .ok e →
          (∀ cut lost, lost ≠ [] → document = cut ++ lost →
            read cut = .error (.malformedEnvelope
              (cutFault e.payload.length cut.length)))
          ∧ ∀ more, more ≠ [] →
            read (document ++ more)
              = .error (.malformedEnvelope .trailingBytes) := by
  refine ⟨fun document e => ?_, fun payload signature h => ?_,
    fun document e h => ?_⟩
  · rw [read_eq_ok_iff, Nat.lt_succ_iff]
    rfl
  · exact read_assemble (Nat.lt_succ_of_le h) signature
  · obtain ⟨hsize, -, hdocument⟩ := read_eq_ok_iff.1 h
    refine ⟨fun cut lost hlost hcut => ?_, fun more hmore => ?_⟩
    · exact read_of_endsIn hsize ⟨lost, hlost, hdocument.symm.trans hcut⟩
    · rw [hdocument]
      exact read_append hsize hmore

/-- A payload that looks like the header of a signature: with it the
document is one, but not up to the end of the payload, nor up to the
real header, nor with a byte more. -/
theorem read_eq_ok_iff_assembled_lookalike :
    ([0x58, 0x60] : Bytes).length ≤ 65535
      ∧ read (assemble [0x58, 0x60] (.ofNat 96 0))
          = .ok ⟨.ofNat 2 2, [0x58, 0x60], .ofNat 96 0⟩
      ∧ read ((assemble [0x58, 0x60] (.ofNat 96 0)).take 11)
          = .error (.malformedEnvelope .payloadCut)
      ∧ read ((assemble [0x58, 0x60] (.ofNat 96 0)).take 12)
          = .error (.malformedEnvelope .signatureHeader)
      ∧ read (assemble [0x58, 0x60] (.ofNat 96 0) ++ [0])
          = .error (.malformedEnvelope .trailingBytes) := by
  obtain ⟨-, hwhole, hends⟩ := read_eq_ok_iff_assembled
  have hread := hwhole [0x58, 0x60] (.ofNat 96 0) (by decide)
  obtain ⟨hcut, hmore⟩ := hends _ _ hread
  have htake (n : Nat) := (List.take_append_drop n
    (assemble [0x58, 0x60] (.ofNat 96 0))).symm
  exact ⟨by decide, hread,
    hcut _ _ (List.cons_ne_nil _ _) (htake 11),
    hcut _ _ (List.cons_ne_nil _ _) (htake 12),
    hmore [0] (List.cons_ne_nil _ _)⟩

end Envelope

end Attestation
