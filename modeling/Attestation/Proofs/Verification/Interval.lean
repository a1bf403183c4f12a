/-
The moments at which a document is accepted. Without a rule about its
age a document is accepted over an interval of moments, the interval
only grows with the percentage, and the statement is the same all over
it (`run_verify_of_between`).

Time enters a verification in many places, one for each certificate and
one for the root. `Between` relates three runs, two at the ends and one
between them, and passes through a sequence; so one lemma for each
function, in the shape of the function, carries it from the single check
of a validity to the whole verification.

The three runs go on with the same value after each step, which is why
the relation asks for it: what the two at the ends have found is what
the one between them has found, so the rest of all three is the same
function of the same value. A relation that only spoke of success would
not get past the first sequence.

The root is checked in one direction only: it is alive at a moment if it
is alive at a later one. All other checks need both ends. A rule about
the age is left out on purpose, as it may take any set of moments it
likes.

The small chain is accepted at both ends of an interval, so it is
accepted in all of it, at the percentage for which it was checked and at
larger ones.
-/
import Attestation.Proofs.Document.Modes
import Attestation.Proofs.Time.Window
import Attestation.Proofs.Verification.FullTrust

namespace Attestation

open Inquiry

-- ========================================================== three runs

namespace Inquiry

variable {α β : Type} {answer : Query → Bool}

/-- What two inquiries come to, the third comes to as well: if the first
two are done they agree, and the third is done with the same. -/
def Between (answer : Query → Bool) (x y z : Inquiry α) : Prop :=
  ∀ a b, x.run answer = .ok a → y.run answer = .ok b →
    b = a ∧ z.run answer = .ok a

/-- Where time has no part all three are the same inquiry. -/
theorem Between.refl (x : Inquiry α) : Between answer x x x := by
  intro a b ha hb
  rw [ha] at hb
  cases hb
  exact ⟨rfl, ha⟩

/-- A check that asks nothing is between two when it passes whenever
they do. -/
theorem Between.check {x y z : Except Refusal Unit}
    (h : x = .ok () → y = .ok () → z = .ok ()) :
    Between answer (ofExcept x) (ofExcept y) (ofExcept z) := by
  intro a b ha hb
  rw [run_ofExcept] at ha hb ⊢
  exact ⟨rfl, h ha hb⟩

/-- Sequences that agree in their first steps, and in what they do with
the values of these, agree. -/
theorem Between.bind {x y z : Inquiry α} {f g h : α → Inquiry β}
    (hhead : Between answer x y z)
    (htail : ∀ value, Between answer (f value) (g value) (h value)) :
    Between answer (x.bind f) (y.bind g) (z.bind h) := by
  intro a b ha hb
  rw [run_bind] at ha hb ⊢
  obtain ⟨value, hx, ha⟩ := bind_eq_ok_iff.1 ha
  obtain ⟨value', hy, hb⟩ := bind_eq_ok_iff.1 hb
  obtain ⟨hvalue, hz⟩ := hhead value value' hx hy
  rw [hvalue] at hb
  obtain ⟨hsame, hrest⟩ := htail value a b ha hb
  exact ⟨hsame, bind_eq_ok_iff.2 ⟨value, hz, hrest⟩⟩

end Inquiry

-- ============================================================ the walk

namespace Walk

/-- The walk at another moment, with another percentage. -/
def timed (w : Walk) (percent now : UInt64) : Walk :=
  { w with fuzzPercent := percent, now := now }

@[simp] theorem timed_mode (w : Walk) (percent now : UInt64) :
    (w.timed percent now).mode = w.mode :=
  rfl

section

variable {answer : Query → Bool} {w : Walk}
  {percent wider first now last : UInt64} (hwider : percent ≤ wider)
  (hfirst : first ≤ now) (hlast : now ≤ last)

include hwider hfirst hlast

/-- A link looks at the time once, in the check of the validity. -/
theorem link_between (index : Nat) (issuer : Issuer) (der : Bytes) :
    Between answer ((w.timed percent first).link index issuer der)
      ((w.timed percent last).link index issuer der)
      ((w.timed wider now).link index issuer der) := by
  unfold link
  refine .bind (.refl (ofExcept (Certificate.read der))) fun c => ?_
  refine .bind (.refl (ofExcept (require _ _))) fun _ => ?_
  refine .bind (.check ?_) fun _ => .refl _
  exact Validity.check_of_between hwider hfirst hlast

/-- Taking in an entry is between, whichever place it has. -/
theorem extend_between (index : Nat) (issuer : Issuer) (der : Bytes) :
    Between answer ((w.timed percent first).extend index issuer der)
      ((w.timed percent last).extend index issuer der)
      ((w.timed wider now).extend index issuer der) := by
  cases index with
  | zero => exact .refl _
  | succ index => exact link_between hwider hfirst hlast _ issuer der

/-- By induction on the entries that are left: each is framed without a
look at the time. -/
theorem entries_between (index : Nat) (issuer : Issuer) (r : Reader)
    (left : Nat) :
    Between answer ((w.timed percent first).entries index issuer r left)
      ((w.timed percent last).entries index issuer r left)
      ((w.timed wider now).entries index issuer r left) := by
  induction left generalizing index issuer r with
  | zero => exact .refl _
  | succ left ih =>
    unfold entries
    refine .bind (.refl (ofExcept (Bundle.entry r))) ?_
    rintro ⟨der, r⟩
    refine .bind (extend_between hwider hfirst hlast index issuer der) ?_
    exact fun issuer => ih (index + 1) issuer r

theorem leaf_between (count : Nat) (issuer : Issuer)
    (certificate : Bytes) :
    Between answer ((w.timed percent first).leaf count issuer certificate)
      ((w.timed percent last).leaf count issuer certificate)
      ((w.timed wider now).leaf count issuer certificate) := by
  unfold leaf
  simp only [timed_mode]
  cases w.mode with
  | identityLinkage => exact .refl _
  | full => exact link_between hwider hfirst hlast count issuer certificate

/-- A walk is between, from the first entry to the last certificate. -/
theorem chain_between (certificate cabundle : Bytes) :
    Between answer ((w.timed percent first).chain certificate cabundle)
      ((w.timed percent last).chain certificate cabundle)
      ((w.timed wider now).chain certificate cabundle) := by
  unfold chain
  refine .bind (.refl (ofExcept (Bundle.count _))) ?_
  rintro ⟨count, r⟩
  refine .bind (entries_between hwider hfirst hlast 0 _ r count) ?_
  rintro ⟨issuer, r⟩
  refine .bind (leaf_between hwider hfirst hlast count issuer _) ?_
  exact fun issuer => .refl _

end

end Walk

-- ========================================================= the payload

namespace Statement

/-- The rule that accepts every age does not look at the time. -/
theorem readFront_any (now other : UInt64) (r : Reader) :
    readFront .any now r = readFront .any other r :=
  rfl

variable {answer : Query → Bool} {w : Walk}
  {percent wider first now last : UInt64} (hwider : percent ≤ wider)
  (hfirst : first ≤ now) (hlast : now ≤ last)

include hwider hfirst hlast

/-- The part of a payload that looks at certificates is between. -/
theorem readBundle_between (certificate : Bytes) (r : Reader) :
    Between answer (readBundle (w.timed percent first) certificate r)
      (readBundle (w.timed percent last) certificate r)
      (readBundle (w.timed wider now) certificate r) := by
  unfold readBundle
  refine .bind (.refl (ofExcept (expect .cabundle r))) fun r => ?_
  refine .bind (Walk.chain_between hwider hfirst hlast certificate _) ?_
  exact fun found => .refl _

/-- A whole payload is between, as its other fields have no moment. -/
theorem read_between (payload : Bytes) :
    Between answer (read (w.timed percent first) .any payload)
      (read (w.timed percent last) .any payload)
      (read (w.timed wider now) .any payload) := by
  unfold read
  rw [readFront_any _ now, readFront_any (w.timed percent last).now now]
  refine .bind (.refl (ofExcept (readFront .any now _))) ?_
  rintro ⟨front, r⟩
  refine .bind (readBundle_between hwider hfirst hlast _ r) ?_
  exact fun found => .refl _

end Statement

-- ==================================================== the verification

namespace Setup

variable {answer : Query → Bool} {setup : Setup} {acceptsPcrs : PcrRule}
  {wider first now last : UInt64}

/-- A whole verification is between; the root's end needs the later
moment only. -/
theorem verify_between (hwider : setup.fuzzPercent ≤ wider)
    (hfirst : first ≤ now) (hlast : now ≤ last) (document : Bytes) :
    Between answer (setup.verify first .any acceptsPcrs document)
      (setup.verify last .any acceptsPcrs document)
      (({ setup with fuzzPercent := wider } : Setup).verify now .any
        acceptsPcrs document) := by
  unfold verify
  refine .bind (.check ?alive) fun _ => ?_
  case alive =>
    -- the root is past its end later than the last moment
    intro _ hend
    have hend := require_eq_ok_iff.1 hend
    exact require_eq_ok_iff.2 (UInt64.lt_of_le_of_lt hlast hend)
  refine .bind (.refl (ofExcept (Envelope.read document))) fun e => ?_
  refine .bind ?payload fun s => .refl _
  case payload =>
    exact Statement.read_between (w := setup.walk first) hwider hfirst hlast
      e.payload

/-- A document that is accepted at two moments, whatever its age, is
accepted at every moment between them, also with a larger percentage,
and states the same at all three. -/
theorem run_verify_of_between (setup : Setup) (wider : UInt64)
    (acceptsPcrs : PcrRule) (answer : Query → Bool) (document : Bytes)
    (first now last : UInt64) (v v' : Statement)
    (hwider : setup.fuzzPercent ≤ wider) (hfirst : first ≤ now)
    (hlast : now ≤ last)
    (h : (setup.verify first .any acceptsPcrs document).run answer
      = .ok v)
    (h' : (setup.verify last .any acceptsPcrs document).run answer
      = .ok v') :
    v' = v
      ∧ (({ setup with fuzzPercent := wider } : Setup).verify now .any
          acceptsPcrs document).run answer = .ok v :=
  verify_between hwider hfirst hlast document v v' h h'

end Setup

-- ================================================ the small chain in time

namespace SmallChain

/-- The document around the payload. -/
def document : Bytes :=
  Envelope.assemble payload.write signature

/-- Trust in the small chain's root, with nothing added to a period of
validity. -/
def setup : Setup :=
  ⟨anchor, .full, 0⟩

/-- While the certificates are valid and the root is alive, the document
deserves full trust from a judge that says yes to everything. -/
theorem fullTrust (now : UInt64) (hnow : now < anchor.expiresAt)
    (hvalid : own.validity.check now 0 = .ok ()) :
    setup.FullTrust now .any .any (fun _ => true) document
      (payload.statement own.publicKey) payload signature bundle
      [inner.certificate] own.certificate := by
  have hchain : (setup.walk now).Unbroken payload.certificate bundle
      [inner.certificate, own.certificate] := unbroken rfl rfl hvalid
  constructor
  case alive => exact hnow
  case size_lt => decide +kernel
  case root => exact hchain.root rfl
  case inner_read => exact .cons inner.read_parts .nil
  case own_read => exact own.read_parts
  case linked => exact hchain.linked
  case signed => exact fun _ _ => rfl
  all_goals rfl

/-- The small chain is accepted wherever its certificates are valid. -/
theorem run_verify (now : UInt64) (hnow : now < anchor.expiresAt)
    (hvalid : own.validity.check now 0 = .ok ()) :
    (setup.verify now .any .any document).run (fun _ => true)
      = .ok (payload.statement own.publicKey) :=
  run_eq_iff.2 (Setup.ends_of_fullTrust rfl (fullTrust now hnow hvalid))

end SmallChain

/-- The small chain's document is accepted in the first and in the last
second in which its certificates are valid and their root is alive, and
so in November 2023, with thirty hundredths added to each validity. -/
theorem Setup.run_verify_of_between_smallChain :
    (SmallChain.setup.verify 1577836800 .any .any
          SmallChain.document).run (fun _ => true)
        = .ok (SmallChain.payload.statement SmallChain.own.publicKey)
      ∧ (SmallChain.setup.verify 1893455999 .any .any
            SmallChain.document).run (fun _ => true)
          = .ok (SmallChain.payload.statement SmallChain.own.publicKey)
      ∧ (({ SmallChain.setup with fuzzPercent := 30 } : Setup).verify
            1700000000 .any .any SmallChain.document).run (fun _ => true)
          = .ok (SmallChain.payload.statement
              SmallChain.own.publicKey) := by
  have hfirst := SmallChain.run_verify 1577836800 (by decide) rfl
  have hlast := SmallChain.run_verify 1893455999 (by decide) rfl
  obtain ⟨-, hbetween⟩ := run_verify_of_between SmallChain.setup 30 .any
    (fun _ => true) SmallChain.document 1577836800 1700000000 1893455999
    _ _ (by decide) (by decide) (by decide) hfirst hlast
  exact ⟨hfirst, hlast, hbetween⟩

end Attestation
