/-
Walking a chain of certificates on a machine. The count of entries is a
difference of two bytes, the entries are numbered by sums, and each
entry is read by a cursor over the bytes from the bundle on.

The check that keeps the difference above zero also keeps the numbers of
the entries below sixteen. The walk adds one to the number for each
entry, so the recursion has to know that number and count stay small
together, and that is the only thing that its induction carries beside
the place (`entries_lockstep`).

The widening of a period of validity needs no check: each of its steps
stops at the ends of the 64-bit range, whatever the percentage is, and
it is taken as it stands. The same holds for comparing names and for
asking questions. What is left of a link is to read the certificate, and
for that the entry has to be short, which it is because it was taken out
of short bytes (`Taken`).
-/
import Attestation.Proofs.Machine.Certificate
import Attestation.Trust.Walk

namespace Attestation

namespace Machine

-- ======================================================== operations

/-- The number of entries, from the header of the array. -/
def bundleCount (c : Cursor) : Run (Nat × Cursor) := do
  let (header, c) ← want c.byte (return .malformedBundle .missing)
  require (0x80 ≤ header ∧ header ≤ 0x8f)
    (Refusal.malformedBundle .notArray)
  let count ← sub header.toNat 0x80
  return (count, c)

def bundleEntry (c : Cursor) : Run (Bytes × Cursor) := do
  let (header, c) ← want c.byte c.missing
  require (header = 0x59) (Refusal.malformedBundle .notByteString)
  let (length, c) ← want (c.nat 2) c.missing
  want (c.take length) c.missing

def link (w : Walk) (index : Nat) (issuer : Issuer) (der : Bytes) :
    Consult Issuer := do
  let cert ← certificate der
  require (cert.issuerHash = issuer.identity) (Refusal.chainBroken index)
  cert.validity.check w.now w.fuzzPercent
  w.checkIssued index issuer cert
  return cert.subject

def confirmRoot (w : Walk) (der : Bytes) : Run Unit :=
  match w.mode with
  | .identityLinkage => return ()
  | .full => do
    let cert ← certificate der
    require (cert.subject.key = w.anchor.publicKey
      ∧ cert.subject.identity = w.anchor.identity)
      (Refusal.chainBroken 0)

def extend (w : Walk) (index : Nat) (issuer : Issuer) (der : Bytes) :
    Consult Issuer :=
  match index with
  | 0 => do
    confirmRoot w der
    return issuer
  | index + 1 => link w (index + 1) issuer der

/-- The index of the entry after the last one is worked out too. -/
def entries (w : Walk) (index : Nat) (issuer : Issuer) (c : Cursor) :
    (left : Nat) → Consult (Issuer × Cursor)
  | 0 => return (issuer, c)
  | left + 1 => do
    let (der, c) ← bundleEntry c
    let issuer ← extend w index issuer der
    let next ← add index 1
    entries w next issuer c left

def leaf (w : Walk) (count : Nat) (issuer : Issuer)
    (enclave : Bytes) : Consult Issuer :=
  match w.mode with
  | .identityLinkage => return issuer
  | .full => link w count issuer enclave

def chain (w : Walk) (enclave cabundle : Bytes) :
    Consult (PublicKey × Nat) := do
  let (count, c) ← bundleCount (.ofBytes cabundle)
  let (issuer, c) ← entries w 0 w.anchor.issuer c count
  let issuer ← leaf w count issuer enclave
  return (issuer.key, c.pos)

-- ==================================================== without faults

open Cursor

variable {data : Bytes} {c : Cursor} {r : Reader} {w : Walk}
  {issuer : Issuer} {der enclave : Bytes}

/-- The count is read alike, and is below sixteen. -/
theorem bundleCount_agrees (h : Tracks data c r) :
    Agrees (With fun count c r => count < 16 ∧ Tracks data c r)
      (bundleCount c) (Bundle.count r) := by
  unfold bundleCount Bundle.count
  refine (Agrees.want h.byte rfl).bind_with fun header c r h => ?_
  refine Agrees.plain_bind fun _ hheader => ?_
  have hheader := require_eq_ok_iff.1 hheader
  have hlow : 0x80 ≤ header.toNat := UInt8.le_iff_toNat_le.1 hheader.1
  have hhigh : header.toNat ≤ 0x8f := UInt8.le_iff_toNat_le.1 hheader.2
  refine Agrees.check (sub_eq hlow) ?_
  refine .ok ⟨rfl, ?_, h⟩
  show header.toNat - 0x80 < 16
  omega

/-- An entry is cut out alike. -/
theorem bundleEntry_agrees (h : Tracks data c r) :
    Agrees (With (Taken data)) (bundleEntry c) (Bundle.entry r) := by
  unfold bundleEntry Bundle.entry
  refine (Agrees.want h.byte h.missing).bind_with fun header c r h => ?_
  refine Agrees.plain_bind fun _ _ => ?_
  refine (Agrees.want (h.nat (by omega)) h.missing).bind_with
    fun length c r h => ?_
  exact Agrees.want (h.take length) h.missing

/-- A link asks the same and fails for the same reason. -/
theorem link_lockstep (index : Nat) (hsmall : der.length < 65536) :
    Lockstep Eq (link w index issuer der) (w.link index issuer der) := by
  unfold link Walk.link
  refine (Lockstep.lift (certificate_agrees hsmall)).bind
    fun cert _ hcert => ?_
  cases hcert
  refine Lockstep.rule_bind fun _ _ => ?_
  refine Lockstep.rule_bind fun _ _ => ?_
  refine (Lockstep.plain (w.checkIssued index issuer cert)).bind
    fun _ _ _ => ?_
  exact .done rfl

/-- The first entry is compared with the root alike. -/
theorem confirmRoot_agrees (hsmall : der.length < 65536) :
    Agrees Eq (confirmRoot w der) (w.confirmRoot der) := by
  unfold confirmRoot Walk.confirmRoot
  cases w.mode with
  | identityLinkage => exact .ok rfl
  | full =>
    refine (certificate_agrees hsmall).bind fun cert _ hcert => ?_
    cases hcert
    exact Agrees.plain _

/-- An entry is taken into the chain alike, whichever it is. -/
theorem extend_lockstep (index : Nat) (hsmall : der.length < 65536) :
    Lockstep Eq (extend w index issuer der)
      (w.extend index issuer der) := by
  cases index with
  | zero =>
    exact (Lockstep.lift (confirmRoot_agrees hsmall)).bind
      fun _ _ _ => .done rfl
  | succ index => exact link_lockstep (index + 1) hsmall

/-- By induction on the entries that are left. The bound is on the
number of all entries. -/
theorem entries_lockstep (index left : Nat) (issuer : Issuer)
    (h : Tracks data c r) (hroom : index + left < wordSize) :
    Lockstep (With fun _ => Tracks data) (entries w index issuer c left)
      (w.entries index issuer r left) := by
  induction left generalizing index issuer c r with
  | zero => exact .done ⟨rfl, h⟩
  | succ left ih =>
    unfold entries Walk.entries
    refine (Lockstep.lift (bundleEntry_agrees h)).bind_with
      fun der c r h => ?_
    refine (extend_lockstep index h.1).bind fun issuer _ hissuer => ?_
    cases hissuer
    have hnext : add index 1 = .ok (index + 1) := add_eq (by omega)
    exact Lockstep.check hnext (ih (index + 1) issuer h.2 (by omega))

/-- The enclave's own certificate is linked in step, in either mode. -/
theorem leaf_lockstep (count : Nat) (hsmall : enclave.length < 65536) :
    Lockstep Eq (leaf w count issuer enclave)
      (w.leaf count issuer enclave) := by
  unfold leaf Walk.leaf
  cases w.mode with
  | identityLinkage => exact .done rfl
  | full => exact link_lockstep count hsmall

/-- The walk uses no more bytes than there are. -/
theorem chain_lockstep {cabundle : Bytes} (henclave : enclave.length < 65536)
    (hbundle : cabundle.length < 65536) :
    Lockstep (fun p q => p = q ∧ p.2 ≤ cabundle.length)
      (chain w enclave cabundle) (w.chain enclave cabundle) := by
  unfold chain Walk.chain
  refine (Lockstep.lift (bundleCount_agrees (.ofBytes hbundle))).bind_with
    fun count c r h => ?_
  have hroom : 0 + count < wordSize := by
    have hcount := h.1
    rw [wordSize]
    omega
  refine (entries_lockstep 0 count w.anchor.issuer h.2 hroom).bind_with
    fun issuer c r h => ?_
  refine (leaf_lockstep count henclave).bind fun issuer _ hissuer => ?_
  cases hissuer
  have hsame : (issuer.key, c.pos) = (issuer.key, r.position) := by
    rw [h.position_eq]
  exact .done ⟨hsame, h.pos_le_length⟩

end Machine

end Attestation
