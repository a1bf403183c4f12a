/-
The layout of a payload, as data. `Payload` holds what may vary from one
accepted payload to another, `Payload.write` puts the fixed bytes around
it, and `Payload.statement` is what it says once the chain has given a
key.

`trace_read_eq_ok_iff`, the main statement, is exactness in both
directions, for every judge: a payload is read when it is written from
such data, its time is accepted, and the walk over its bundle succeeds
and uses the whole bundle; the questions asked are those of the walk.

The payload is cut into three parts, the fields before the bundle, the
bundle, and the fields after it, and each part has its own equivalence.
The first and the last are formats, and are passages. The one in the
middle is a walk, which asks questions and may end in many ways; it is
handed the rest of the payload, not knowing where the bundle ends, and
says how much of that it has used. So the bundle is found from what the
walk used, and what follows it is of no concern to the walk
(`Walk.chain_ends_ok_iff_alone`); this is how the equivalence in the
middle comes to speak of a bundle at all.

`read_ends_cases` is for readings that fail as well. Whatever happens,
the questions are those of one walk, over the bytes from the bundle on,
or there are none because the reading has failed before; and no other
bundle could have been meant, since the fields before it end at one
place (`frontParts_write_inj`). Who asks what when a verification fails
is read off from there.
-/
import Attestation.Proofs.Document.Fields
import Attestation.Proofs.Trust.Chain

namespace Attestation

open Reader Inquiry

/-- The variable parts of the fields before the bundle. -/
structure FrontParts where
  moduleId : String
  moduleId_fits : (Utf8.encode moduleId.toList).length < 256
  timestamp : UInt64
  registers : Registers
  certificate : Bytes
  certificate_fits : certificate.length < 65536

namespace FrontParts

/-- The map header and the fields before the bundle. -/
def write (p : FrontParts) : Bytes :=
  mapHeaderBytes ++ moduleIdBytes p.moduleId ++ Field.digest.spelling
    ++ timestampBytes p.timestamp ++ p.registers.write
    ++ certificateBytes p.certificate

/-- What the fields hold. -/
def front (p : FrontParts) : Statement.Front :=
  ⟨p.moduleId, p.timestamp, p.registers.kept, p.certificate⟩

end FrontParts

/-- The variable parts of the fields after the bundle. -/
structure BackParts where
  publicKey : Option ByteString
  userData : Option ByteString
  nonce : Option ByteString

namespace BackParts

/-- The fields after the bundle. -/
def write (p : BackParts) : Bytes :=
  optionalBytes .publicKey p.publicKey
    ++ optionalBytes .userData p.userData ++ optionalBytes .nonce p.nonce

/-- What the fields hold. -/
def back (p : BackParts) : Statement.Back :=
  ⟨p.publicKey.map ByteString.content, p.userData.map ByteString.content,
   p.nonce.map ByteString.content⟩

end BackParts

/-- The variable parts of a payload. The bundle is any bytes here: a
walk decides whether it is one. -/
structure Payload extends FrontParts, BackParts where
  bundle : Bytes

namespace Payload

/-- The payload. -/
def write (p : Payload) : Bytes :=
  p.toFrontParts.write ++ Field.cabundle.spelling ++ p.bundle
    ++ p.toBackParts.write

/-- What the payload states, with the key that its chain leads to. -/
def statement (p : Payload) (key : PublicKey) : Statement where
  moduleId := p.moduleId
  timestamp := p.timestamp
  pcrs := p.registers.kept
  enclaveKey := key
  publicKey := p.publicKey.map ByteString.content
  userData := p.userData.map ByteString.content
  nonce := p.nonce.map ByteString.content

end Payload

namespace Statement

variable {r r' : Reader} {w : Walk} {accepts : AgeRule}
  {calls : List Call} {payload : Bytes}

-- ======================================================= three parts

/-- The fields before the bundle are read where they are written, if the
time in them is accepted. -/
theorem readFront_iff_passes {now : UInt64} {front : Front} :
    readFront accepts now r = .ok (front, r')
      ↔ ∃ p : FrontParts, front = p.front ∧ accepts p.timestamp now = true
          ∧ r.Passes p.write r' := by
  unfold readFront
  constructor
  · intro h
    obtain ⟨r₁, e₁, h⟩ := bind_eq_ok_iff.1 h
    obtain ⟨⟨name, r₂⟩, e₂, h⟩ := bind_eq_ok_iff.1 h
    obtain ⟨r₃, e₃, h⟩ := bind_eq_ok_iff.1 h
    obtain ⟨⟨t, r₄⟩, e₄, h⟩ := bind_eq_ok_iff.1 h
    obtain ⟨_, e₅, h⟩ := bind_eq_ok_iff.1 h
    obtain ⟨⟨pcrs, r₅⟩, e₆, h⟩ := bind_eq_ok_iff.1 h
    obtain ⟨⟨der, r₆⟩, e₇, h⟩ := bind_eq_ok_iff.1 h
    cases h
    have hheader := demand_pass?_iff.1 e₁
    obtain ⟨hname, hmodule⟩ := readModuleId_iff_passes.1 e₂
    have hdigest := expect_iff_passes.1 e₃
    have htime := readTimestamp_iff_passes.1 e₄
    obtain ⟨registers, rfl, hpcrs⟩ := readPcrs_iff_passes.1 e₆
    obtain ⟨hder, hcertificate⟩ := readCertificate_iff_passes.1 e₇
    refine ⟨⟨name, hname, t, registers, der, hder⟩, rfl,
      require_eq_ok_iff.1 e₅, ?_⟩
    exact ((((hheader.trans hmodule).trans hdigest).trans htime).trans
      hpcrs).trans hcertificate
  · intro h
    obtain ⟨p, hfront, haccepts, h⟩ := h
    obtain ⟨r₅, h, hcertificate⟩ := passes_append_iff.1 h
    obtain ⟨r₄, h, hpcrs⟩ := passes_append_iff.1 h
    obtain ⟨r₃, h, htime⟩ := passes_append_iff.1 h
    obtain ⟨r₂, h, hdigest⟩ := passes_append_iff.1 h
    obtain ⟨r₁, hheader, hmodule⟩ := passes_append_iff.1 h
    refine bind_eq_ok_iff.2 ⟨r₁, demand_pass?_iff.2 hheader, ?_⟩
    refine bind_eq_ok_iff.2 ⟨(p.moduleId, r₂),
      readModuleId_iff_passes.2 ⟨p.moduleId_fits, hmodule⟩, ?_⟩
    refine bind_eq_ok_iff.2 ⟨r₃, expect_iff_passes.2 hdigest, ?_⟩
    refine bind_eq_ok_iff.2 ⟨(p.timestamp, r₄),
      readTimestamp_iff_passes.2 htime, ?_⟩
    refine bind_eq_ok_iff.2 ⟨(), require_eq_ok_iff.2 haccepts, ?_⟩
    refine bind_eq_ok_iff.2 ⟨(p.registers.kept, r₅),
      readPcrs_iff_passes.2 ⟨p.registers, rfl, hpcrs⟩, ?_⟩
    refine bind_eq_ok_iff.2 ⟨(p.certificate, r'),
      readCertificate_iff_passes.2 ⟨p.certificate_fits, hcertificate⟩, ?_⟩
    rw [hfront]
    rfl

/-- Two ways to write the first fields have the same parts in them and
end at the same place. -/
theorem frontParts_write_inj {p q : FrontParts} {more rest : Bytes}
    (h : p.write ++ more = q.write ++ rest) :
    p.front = q.front ∧ more = rest := by
  obtain ⟨r₁, hp, hmore⟩ := exists_passes_ofBytes (rfl : p.write ++ more = _)
  obtain ⟨r₂, hq, hrest⟩ := exists_passes_ofBytes h
  -- the rule that accepts every time leaves nothing but the places
  have hread₁ : readFront .any 0 _ = .ok (p.front, r₁) :=
    readFront_iff_passes.2 ⟨p, rfl, rfl, hp⟩
  have hread₂ : readFront .any 0 _ = .ok (q.front, r₂) :=
    readFront_iff_passes.2 ⟨q, rfl, rfl, hq⟩
  have hsame := hread₁.symm.trans hread₂
  rw [Except.ok.injEq, Prod.mk.injEq] at hsame
  exact ⟨hsame.1, by rw [← hmore, ← hrest, hsame.2]⟩

/-- The fields after it are read where they are all that is left. -/
theorem readBack_eq_ok_iff {back : Back} :
    readBack r = .ok back
      ↔ ∃ p : BackParts, back = p.back ∧ r.rest = p.write := by
  unfold readBack
  constructor
  · intro h
    obtain ⟨⟨key?, r₁⟩, e₁, h⟩ := bind_eq_ok_iff.1 h
    obtain ⟨⟨data?, r₂⟩, e₂, h⟩ := bind_eq_ok_iff.1 h
    obtain ⟨⟨nonce?, r₃⟩, e₃, h⟩ := bind_eq_ok_iff.1 h
    obtain ⟨_, e₄, h⟩ := bind_eq_ok_iff.1 h
    cases h
    obtain ⟨key, rfl, hkey⟩ := readOptional_iff_passes.1 e₁
    obtain ⟨data, rfl, hdata⟩ := readOptional_iff_passes.1 e₂
    obtain ⟨nonce, rfl, hnonce⟩ := readOptional_iff_passes.1 e₃
    have hend := isEmpty_iff.1 (require_eq_ok_iff.1 e₄)
    refine ⟨⟨key, data, nonce⟩, rfl, ?_⟩
    rw [((hkey.trans hdata).trans hnonce).rest_eq, hend, List.append_nil]
    rfl
  · intro h
    obtain ⟨p, hback, hrest⟩ := h
    have hstart : r.rest = p.write ++ [] := by
      rw [List.append_nil, hrest]
    obtain ⟨r₃, h, hend⟩ := exists_passes hstart
    obtain ⟨r₂, h, hnonce⟩ := passes_append_iff.1 h
    obtain ⟨r₁, hkey, hdata⟩ := passes_append_iff.1 h
    refine bind_eq_ok_iff.2 ⟨(_, r₁),
      readOptional_iff_passes.2 ⟨p.publicKey, rfl, hkey⟩, ?_⟩
    refine bind_eq_ok_iff.2 ⟨(_, r₂),
      readOptional_iff_passes.2 ⟨p.userData, rfl, hdata⟩, ?_⟩
    refine bind_eq_ok_iff.2 ⟨(_, r₃),
      readOptional_iff_passes.2 ⟨p.nonce, rfl, hnonce⟩, ?_⟩
    refine bind_eq_ok_iff.2
      ⟨(), require_eq_ok_iff.2 (isEmpty_iff.2 hend), ?_⟩
    rw [hback]
    rfl

/-- The bundle is the bytes that the walk uses. -/
theorem readBundle_ends_ok_iff {certificate : Bytes} {key : PublicKey} :
    (readBundle w certificate r).Ends calls (.ok (key, r'))
      ↔ ∃ bundle, r.Passes (Field.cabundle.spelling ++ bundle) r'
          ∧ (w.chain certificate bundle).Ends calls
              (.ok (key, bundle.length)) := by
  unfold readBundle
  constructor
  · intro h
    obtain ⟨r₁, hopening, h⟩ := ends_ofExcept_bind_ok_iff.1 h
    obtain ⟨⟨key', consumed⟩, first, later, hchain, h, hcalls⟩ :=
      ends_bind_ok_iff.1 h
    obtain ⟨r₂, hskip, h⟩ := ends_ofExcept_bind_ok_iff.1 h
    obtain ⟨hnil, hvalue⟩ := ends_done_iff.1 h
    cases hvalue
    rw [hnil, List.append_nil] at hcalls
    obtain ⟨bundle, more, hrest, hconsumed, hchain⟩ :=
      Walk.chain_ends_ok_iff_alone.1 hchain
    obtain ⟨data, hlen, hdata⟩ := demand_skip?_iff.1 hskip
    have hsame : bundle = data := by
      rw [hdata.rest_eq] at hrest
      exact (List.append_inj hrest.symm (by rw [hlen, hconsumed])).1
    refine ⟨bundle, ?_, by rw [hcalls]; exact hchain⟩
    rw [hsame]
    exact (expect_iff_passes.1 hopening).trans hdata
  · intro h
    obtain ⟨bundle, h, hchain⟩ := h
    obtain ⟨r₁, hopening, hdata⟩ := passes_append_iff.1 h
    refine ends_ofExcept_bind_ok_iff.2
      ⟨r₁, expect_iff_passes.2 hopening, ?_⟩
    refine ends_bind_ok_iff.2
      ⟨(key, bundle.length), calls, [], ?_, ?_, ?_⟩
    · exact Walk.chain_ends_ok_iff_alone.2
        ⟨bundle, r'.rest, hdata.rest_eq, rfl, hchain⟩
    · exact ends_ofExcept_bind_ok_iff.2
        ⟨r', demand_skip?_iff.2 ⟨bundle, rfl, hdata⟩, .done _⟩
    · rw [List.append_nil]

-- ========================================================== the whole

/-- A payload is read along a path exactly when it is written from
parts, its time is accepted, and the path is one of the walk over its
bundle. -/
theorem read_ends_ok_iff {s : Statement} :
    (read w accepts payload).Ends calls (.ok s)
      ↔ ∃ p : Payload, ∃ key, payload = p.write
          ∧ accepts p.timestamp w.now = true
          ∧ (w.chain p.certificate p.bundle).Ends calls
              (.ok (key, p.bundle.length))
          ∧ s = p.statement key := by
  unfold read
  constructor
  · intro h
    obtain ⟨⟨front, r₁⟩, hfront, h⟩ := ends_ofExcept_bind_ok_iff.1 h
    obtain ⟨⟨key, r₂⟩, first, later, hbundle, h, hcalls⟩ :=
      ends_bind_ok_iff.1 h
    obtain ⟨back, hback, h⟩ := ends_ofExcept_bind_ok_iff.1 h
    obtain ⟨hnil, hvalue⟩ := ends_done_iff.1 h
    cases hvalue
    rw [hnil, List.append_nil] at hcalls
    obtain ⟨p, rfl, haccepts, hstart⟩ := readFront_iff_passes.1 hfront
    obtain ⟨bundle, hmiddle, hchain⟩ := readBundle_ends_ok_iff.1 hbundle
    obtain ⟨q, rfl, hend⟩ := readBack_eq_ok_iff.1 hback
    refine ⟨⟨p, q, bundle⟩, key, ?_, haccepts, ?_, rfl⟩
    · rw [(hstart.trans hmiddle).eq_append, hend, ← List.append_assoc]
      rfl
    · rw [hcalls]
      exact hchain
  · intro h
    obtain ⟨p, key, hpayload, haccepts, hchain, hs⟩ := h
    have hstart : (ofBytes payload).rest
        = p.toFrontParts.write ++ (Field.cabundle.spelling ++ p.bundle)
          ++ p.toBackParts.write := by
      show payload = _
      rw [hpayload, ← List.append_assoc]
      rfl
    obtain ⟨r₂, h, hrest⟩ := exists_passes hstart
    obtain ⟨r₁, hfront, hmiddle⟩ := passes_append_iff.1 h
    refine ends_ofExcept_bind_ok_iff.2 ⟨(p.front, r₁),
      readFront_iff_passes.2 ⟨p.toFrontParts, rfl, haccepts, hfront⟩, ?_⟩
    refine ends_bind_ok_iff.2 ⟨(key, r₂), calls, [], ?_, ?_, ?_⟩
    · exact readBundle_ends_ok_iff.2 ⟨p.bundle, hmiddle, hchain⟩
    · refine ends_ofExcept_bind_ok_iff.2 ⟨p.back,
        readBack_eq_ok_iff.2 ⟨p.toBackParts, rfl, hrest⟩, ?_⟩
      rw [hs]
      exact .done _
    · rw [List.append_nil]

/-- Every path through the reading of a payload. Nothing is asked, and
the reading fails, if the payload does not get to a bundle in time.
Otherwise the questions are those of the walk over the bytes from the
bundle on, and if the walk fails the reading fails for the same
reason. -/
theorem read_ends_cases {outcome : Except Refusal Statement}
    (h : (read w accepts payload).Ends calls outcome) :
    (calls = [] ∧ (∃ reason, outcome = .error reason)
        ∧ ∀ p : FrontParts, ∀ cabundle, accepts p.timestamp w.now = true →
            payload ≠ p.write ++ Field.cabundle.spelling ++ cabundle)
      ∨ ∃ p : FrontParts, ∃ cabundle ended,
          accepts p.timestamp w.now = true
            ∧ payload = p.write ++ Field.cabundle.spelling ++ cabundle
            ∧ (w.chain p.certificate cabundle).Ends calls ended
            ∧ ∀ reason, ended = .error reason →
                outcome = .error reason := by
  unfold read readBundle at h
  rcases ends_ofExcept_bind_iff.1 h with ⟨reason, hfront, hcalls, ho⟩
    | ⟨⟨front, r₁⟩, hfront, h⟩
  · refine Or.inl ⟨hcalls, ⟨reason, ho⟩, ?_⟩
    intro p cabundle haccepts hpayload
    rw [List.append_assoc] at hpayload
    obtain ⟨r₁, hpasses, -⟩ := exists_passes_ofBytes hpayload
    rw [readFront_iff_passes.2 ⟨p, rfl, haccepts, hpasses⟩] at hfront
    cases hfront
  obtain ⟨p, rfl, haccepts, hstart⟩ := readFront_iff_passes.1 hfront
  simp only [bind_eq, bind_assoc] at h
  rcases ends_ofExcept_bind_iff.1 h with ⟨reason, hopening, hcalls, ho⟩
    | ⟨r₂, hopening, h⟩
  · -- other fields before a bundle would end at the same place
    refine Or.inl ⟨hcalls, ⟨reason, ho⟩, ?_⟩
    intro q cabundle _ hpayload
    have hsame := hstart.eq_append.symm.trans hpayload
    rw [List.append_assoc] at hsame
    obtain ⟨-, hrest⟩ := frontParts_write_inj hsame
    obtain ⟨r₂, hpasses, -⟩ := exists_passes hrest
    rw [expect_iff_passes.2 hpasses] at hopening
    cases hopening
  have hpayload := (hstart.trans (expect_iff_passes.1 hopening)).eq_append
  refine Or.inr ⟨p, r₂.rest, ?_⟩
  rcases ends_bind_iff.1 h with ⟨reason, hchain, ho⟩
    | ⟨value, first, later, hchain, hlater, hcalls⟩
  · refine ⟨.error reason, haccepts, hpayload, hchain, ?_⟩
    intro reason' he
    rw [ho, Except.error.inj he]
  · -- the fields after the bundle ask nothing
    have hnil : later = [] := by
      rcases ends_ofExcept_bind_iff.1 hlater with ⟨reason, -, hnil, -⟩
        | ⟨r₃, -, hlater⟩
      · exact hnil
      rcases ends_ofExcept_bind_iff.1 hlater with ⟨reason, -, hnil, -⟩
        | ⟨back, -, hlater⟩
      · exact hnil
      · exact (ends_done_iff.1 hlater).1
    refine ⟨.ok value, haccepts, hpayload, ?_, ?_⟩
    · rw [hcalls, hnil, List.append_nil]
      exact hchain
    · intro reason' he
      cases he

/-- A payload is read, by every judge, exactly when it is written from
parts, its time is accepted, and the judge's walk over its bundle
succeeds and uses the whole of it. The statement is then what the parts
hold, and nothing but the walk asks questions. -/
theorem trace_read_eq_ok_iff (w : Walk) (accepts : AgeRule)
    (answer : Nat → Query → Bool) (count : Nat) (payload : Bytes)
    (calls : List Call) (s : Statement) :
    (read w accepts payload).trace answer count = (calls, .ok s)
      ↔ ∃ p : Payload, ∃ key, payload = p.write
          ∧ accepts p.timestamp w.now = true
          ∧ (w.chain p.certificate p.bundle).trace answer count
              = (calls, .ok (key, p.bundle.length))
          ∧ s = p.statement key := by
  rw [trace_eq_iff, read_ends_ok_iff]
  constructor
  · intro h
    obtain ⟨⟨p, key, hpayload, haccepts, hchain, hs⟩, hanswered⟩ := h
    exact ⟨p, key, hpayload, haccepts,
      trace_eq_iff.2 ⟨hchain, hanswered⟩, hs⟩
  · intro h
    obtain ⟨p, key, hpayload, haccepts, hchain, hs⟩ := h
    obtain ⟨hchain, hanswered⟩ := trace_eq_iff.1 hchain
    exact ⟨⟨p, key, hpayload, haccepts, hchain, hs⟩, hanswered⟩

end Statement

end Attestation
