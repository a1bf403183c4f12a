/-
What the signature of a document covers: the signed array around its
payload. The bytes that are hashed take the length of the payload as the
document writes it, in two bytes, and nothing there looks at whether
fewer would do. That they are the shortest encoding of the array all the
same comes from elsewhere: the registers alone make a payload that is
read too long for any shorter head.

For a document whose payload is never read this is not so, and
`signedBytes_eq_shortest_iff` says exactly when: a payload of fewer than
256 bytes has signed bytes that are an encoding of the array, but not
the shortest one. Such a document has a good envelope, and it is for the
reading of its payload to refuse it.

The array binds the payload. Documents with the same signed bytes have
the same payload, so with the same signature they are the same document.

The digest that is signed is taken of three pieces that are never put
together, and is the digest of the signed bytes as a whole
(`signedDigest_eq`); any other way of cutting them gives it too, which
is the last statement. The pieces are as they are because the payload is
large and stands in the document already. What makes it safe is that a
hash keeps what fills no block, and that belongs to hashing and not to
documents.
-/
import Attestation.Proofs.Document.Cbor
import Attestation.Proofs.Document.Envelope
import Attestation.Proofs.Document.Extent
import Attestation.Proofs.Hash.Pieces

namespace Attestation

/-- The registers alone have a length that needs two bytes. -/
theorem Payload.fieldLength_le_length_write (p : Payload) :
    Pcrs.fieldLength ≤ p.write.length := by
  simp only [write, FrontParts.write, List.length_append,
    p.registers.length_write]
  omega

namespace Envelope

variable {document document' : Bytes} {e e' : Envelope}

/-- The array that is signed: its name, the protected header, no further
data, and the payload. -/
def signedArray (payload : Bytes) : Cbor :=
  .array [.text "Signature1", .bytes [0xa1, 0x01, 0x38, 0x22], .bytes [],
    .bytes payload]

/-- The signed bytes up to the head of the payload. -/
def signedStart : Bytes :=
  signedOpening.dropLast

/-- What is signed, with a head of two bytes in front of the payload. -/
theorem signedBytes_of_read (h : read document = .ok e) :
    e.signedBytes = signedStart
      ++ (Cbor.Width.two.head 2 e.payload.length ++ e.payload) := by
  rw [signedBytes, (read_eq_ok_iff.1 h).2.1]
  rfl

-- ========================================================== the encoding

/-- The shortest encoding of the array differs in that head at most. -/
theorem shortest_signedArray (payload : Bytes) :
    (signedArray payload).shortest
      = signedStart ++ ((Cbor.Width.least payload.length).head 2
          payload.length ++ payload) := by
  show signedStart ++ (Cbor.headed 2 payload.length payload ++ []) = _
  rw [List.append_nil, Cbor.headed]

/-- The signed bytes are an encoding of the array. -/
theorem writes_signedBytes (h : read document = .ok e) :
    (signedArray e.payload).Writes e.signedBytes := by
  obtain ⟨hsize, -, -⟩ := read_eq_ok_iff.1 h
  have hpayload : (Cbor.bytes e.payload).Writes
      (Cbor.Width.two.head 2 e.payload.length ++ e.payload) :=
    ⟨.two, hsize, rfl⟩
  have hlast : Cbor.WritesAll [.bytes e.payload]
      (Cbor.Width.two.head 2 e.payload.length ++ e.payload) :=
    ⟨_, [], hpayload, rfl, (List.append_nil _).symm⟩
  rw [signedBytes_of_read h]
  refine ⟨_, ⟨_, _, ⟨.inline, ?name, rfl⟩, ⟨_, _, ⟨.inline, ?header, rfl⟩,
    ⟨_, _, ⟨.inline, ?more, rfl⟩, hlast, rfl⟩, rfl⟩, rfl⟩,
    .inline, ?items, rfl⟩
  case items =>
    show 4 < 24
    decide
  all_goals decide

/-- The signed bytes are the encoding with the least heads exactly when
the payload needs the two bytes that its length is written in. -/
theorem signedBytes_eq_shortest_iff (h : read document = .ok e) :
    e.signedBytes = (signedArray e.payload).shortest
      ↔ 256 ≤ e.payload.length := by
  obtain ⟨hsize, -, -⟩ := read_eq_ok_iff.1 h
  have hleast := Cbor.Width.least_eq_two_iff hsize
  rw [signedBytes_of_read h, shortest_signedArray, ← hleast]
  refine ⟨fun hsame => ?_, fun hsame => by rw [hsame]⟩
  have hlength := congrArg List.length hsame
  simp only [List.length_append, Cbor.Width.length_head] at hlength
  exact Cbor.Width.extra_inj (by omega)

-- =========================================================== the binding

/-- The length before the payload tells where it starts, so nothing of
one payload can pass for the length of another. -/
theorem signedBytes_eq_iff (h : read document = .ok e)
    (h' : read document' = .ok e') :
    e.signedBytes = e'.signedBytes ↔ e.payload = e'.payload := by
  rw [signedBytes_of_read h, signedBytes_of_read h']
  refine ⟨fun hsame => ?_, fun hsame => by rw [hsame]⟩
  have htail := List.append_cancel_left hsame
  refine (List.append_inj htail ?_).2
  rw [Cbor.Width.length_head, Cbor.Width.length_head]

/-- A document is what is signed together with the signature. -/
theorem document_eq_iff (h : read document = .ok e)
    (h' : read document' = .ok e') :
    document = document'
      ↔ e.signedBytes = e'.signedBytes ∧ e.signature = e'.signature := by
  obtain ⟨-, -, hdocument⟩ := read_eq_ok_iff.1 h
  obtain ⟨-, -, hdocument'⟩ := read_eq_ok_iff.1 h'
  rw [signedBytes_eq_iff h h']
  refine ⟨fun hsame => ?_, fun ⟨hpayload, hsignature⟩ => ?_⟩
  · rw [hsame, h'] at h
    cases h
    exact ⟨rfl, rfl⟩
  · rw [hdocument, hdocument', hpayload, hsignature]

/-- The bytes that are signed are the shortest encoding of the signed
array, and they bind the payload. Whatever walk, rule and judge read the
payload of a document, its signed bytes are the one shortest encoding;
a payload that is too short to be read has a document too, and there
they are an encoding, but not the shortest. Two documents have the same
signed bytes exactly when they have the same payload, and are the same
exactly when they have the same signature too. -/
theorem signedBytes_shortest :
    (∀ document e (w : Walk) accepts answer count calls s,
      read document = .ok e →
      (Statement.read w accepts e.payload).trace answer count
          = (calls, .ok s) →
        e.signedBytes = (signedArray e.payload).shortest
          ∧ (signedArray e.payload).IsShortest e.signedBytes)
      ∧ (∀ payload signature, payload.length < 256 →
        ∃ e, read (assemble payload signature) = .ok e
          ∧ e.payload = payload
          ∧ (signedArray payload).Writes e.signedBytes
          ∧ e.signedBytes ≠ (signedArray payload).shortest)
      ∧ ∀ document document' e e',
        read document = .ok e → read document' = .ok e' →
          (e.signedBytes = e'.signedBytes ↔ e.payload = e'.payload)
          ∧ (document = document' ↔ e.signedBytes = e'.signedBytes
              ∧ e.signature = e'.signature) := by
  refine ⟨fun document e w accepts answer count calls s h hs => ?_,
    fun payload signature hshort => ?_,
    fun document document' e e' h h' => ?_⟩
  · obtain ⟨p, key, hpayload, -⟩ :=
      Statement.read_ends_ok_iff.1 (Inquiry.trace_eq_iff.1 hs).1
    have hlong : 256 ≤ e.payload.length := by
      rw [hpayload]
      exact Nat.le_trans (by decide) p.fieldLength_le_length_write
    have hsame := (signedBytes_eq_shortest_iff h).2 hlong
    exact ⟨hsame, (Cbor.isShortest_iff (writes_signedBytes h)).2 hsame⟩
  · have hsize : payload.length < 65536 := by omega
    have h := read_assemble hsize signature
    refine ⟨_, h, rfl, writes_signedBytes h, fun hsame => ?_⟩
    have hlong := (signedBytes_eq_shortest_iff h).1 hsame
    exact absurd hlong (Nat.not_le.2 hshort)
  · exact ⟨signedBytes_eq_iff h h', document_eq_iff h h'⟩

/-- The small document under two signatures, and a payload of no bytes.
The judge of the walk says yes to everything. -/
theorem signedBytes_shortest_smallChain :
    ∃ e e' short,
      read (assemble SmallChain.payload.write (.ofNat 96 0)) = .ok e
        ∧ read (assemble SmallChain.payload.write (.ofNat 96 1)) = .ok e'
        ∧ (Statement.read SmallChain.walk .any e.payload).trace
            (fun _ _ => true) 0
          = (SmallChain.calls,
            .ok (SmallChain.payload.statement SmallChain.own.publicKey))
        ∧ (signedArray e.payload).IsShortest e.signedBytes
        ∧ e.signedBytes = e'.signedBytes
        ∧ assemble SmallChain.payload.write (.ofNat 96 0)
          ≠ assemble SmallChain.payload.write (.ofNat 96 1)
        ∧ read (assemble [] (.ofNat 96 0)) = .ok short
        ∧ short.signedBytes ≠ (signedArray []).shortest := by
  obtain ⟨hlong, hshort, hbinds⟩ := signedBytes_shortest
  have hsize : SmallChain.payload.write.length < 65536 := by
    decide +kernel
  have h := read_assemble hsize (.ofNat 96 0)
  have h' := read_assemble hsize (.ofNat 96 1)
  obtain ⟨short, hread, -, -, hless⟩ := hshort [] (.ofNat 96 0) (by decide)
  obtain ⟨hsigned, hsame⟩ := hbinds _ _ _ _ h h'
  refine ⟨_, _, short, h, h', SmallChain.trace_read,
    (hlong _ _ _ _ _ _ _ _ h SmallChain.trace_read).2, hsigned.2 rfl,
    fun hdocument => ?_, hread, hless⟩
  have hsignature : FixedBytes.ofNat 96 0 = .ofNat 96 1 :=
    (hsame.1 hdocument).2
  exact absurd hsignature (by decide)

-- ============================================================ the digest

/-- A digest does not tell how the bytes were cut. Pieces, however many
and of whatever lengths, have the digest of what they make up, so the
same bytes cut in two ways have one digest. The digest that is signed
for a document is that of the array around its payload as a whole. -/
theorem signedDigest_in_pieces :
    (∀ pieces, sha384Pieces pieces = sha384 pieces.flatten)
      ∧ (∀ pieces pieces' : List Bytes, pieces.flatten = pieces'.flatten →
          sha384Pieces pieces = sha384Pieces pieces')
      ∧ ∀ document e, read document = .ok e →
          e.signedDigest = sha384 e.signedBytes
            ∧ e.signedBytes = [0x84, 0x6a] ++ Bytes.ascii "Signature1"
              ++ [0x44, 0xa1, 0x01, 0x38, 0x22, 0x40, 0x59]
              ++ Bytes.ofNat 2 e.payload.length ++ e.payload := by
  refine ⟨sha384Pieces_eq, fun pieces pieces' hsame => ?_,
    fun document e h => ⟨signedDigest_eq e, ?_⟩⟩
  · rw [sha384Pieces_eq, sha384Pieces_eq, hsame]
  · obtain ⟨-, hheader, -⟩ := read_eq_ok_iff.1 h
    rw [signedBytes, hheader]
    rfl

/-- A block's worth of bytes in one piece, and cut before its last byte
with nothing put between; and the document around no payload. -/
theorem signedDigest_in_pieces_block :
    [List.replicate 128 0].flatten
        = [List.replicate 127 0, [], [(0 : UInt8)]].flatten
      ∧ sha384Pieces [List.replicate 128 0]
        = sha384Pieces [List.replicate 127 0, [], [0]]
      ∧ read (assemble [] (.ofNat 96 0))
        = .ok ⟨.ofNat 2 0, [], .ofNat 96 0⟩
      ∧ signedDigest ⟨.ofNat 2 0, [], .ofNat 96 0⟩
        = sha384 (signedOpening ++ [0, 0]) := by
  obtain ⟨-, hcuts, hsigned⟩ := signedDigest_in_pieces
  have hflatten : [List.replicate 128 0].flatten
      = [List.replicate 127 0, [], [(0 : UInt8)]].flatten := by
    decide
  have hread : read (assemble [] (.ofNat 96 0))
      = .ok ⟨.ofNat 2 0, [], .ofNat 96 0⟩ :=
    read_assemble (by decide) _
  exact ⟨hflatten, hcuts _ _ hflatten, hread, (hsigned _ _ hread).1⟩

end Envelope

end Attestation
