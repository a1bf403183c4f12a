/-
Reading a payload on a machine: one loop over a table of the nine
fields, which sets in a `Record` what each field holds. The record does
not know which fields were read before, so the loop and what follows it
have branches for what cannot happen. Each of them is a fault here:
registers or a bundle that were read and are not there to be passed
over, a fourth optional value, and a record without registers or key
after the last field.

The library reads the same fields one after another, by a function for
each. So there is one lemma for each row of the table, which says what
the row sets (`Sets`), and they are put together along the table. What
was set before is carried in the statement of each lemma as the record
that it starts from; an invariant on records would do, but the set of
fields grows by one with each row, and the record itself says so best.

Two rows are out of the ordinary. The time is judged while it is read,
where the library judges it afterwards, so the two are compared through
a front that judges in the middle (`readFront_eq_judged`). And the three
optional values go to three places by a count of those that were filled:
each of the three lemmas has the count before it as a hypothesis, and
the count after it in what it sets.

With the table done, `finish` finds everything set, and the branches for
what is not are never taken.
-/
import Attestation.Proofs.Machine.Values
import Attestation.Proofs.Machine.Walk

namespace Attestation

namespace Machine

-- ========================================================= the table

/-- How the value of a field is read. -/
inductive ValueKind where
  | text
  | fixed
  | time
  | registers
  | certificate
  | bundle
  | optional

def valueKind : Field → ValueKind
  | .moduleId => .text
  | .digest => .fixed
  | .timestamp => .time
  | .pcrs => .registers
  | .certificate => .certificate
  | .cabundle => .bundle
  | .publicKey | .userData | .nonce => .optional

/-- What was read so far. -/
structure Record where
  moduleId : String
  timestamp : UInt64
  pcrs : Option Pcrs
  certificate : Bytes
  enclaveKey : Option PublicKey
  publicKey : Option Bytes
  userData : Option Bytes
  nonce : Option Bytes
  /-- How many of the three optional values were set. -/
  filled : Nat

namespace Record

def start : Record :=
  ⟨"", 0, none, [], none, none, none, none, 0⟩

/-- Sets the next optional value. -/
def store (s : Record) (value : Option Bytes) : Checked Record :=
  match s.filled with
  | 0 => return { s with publicKey := value, filled := 1 }
  | 1 => return { s with userData := value, filled := 2 }
  | 2 => return { s with nonce := value, filled := 3 }
  | _ => .error .noPlaceLeft

example : store { start with filled := 3 } none = .error .noPlaceLeft :=
  rfl

end Record

/-- Passes over what was read from the bytes after a cursor. -/
def passOver (c : Cursor) (consumed : Nat) (fault : Fault) :
    Checked Cursor := do
  match ← (c.skip consumed).run with
  | some c => return c
  | none => .error fault

-- ========================================================== the loop

/-- Reads one field of the table. -/
def readField (w : Walk) (policy : AgePolicy) (s : Record) (c : Cursor)
    (f : Field) : Consult (Record × Cursor) := do
  let c ← expect f c
  match valueKind f with
  | .text =>
    let (text, c) ← textValue f c
    return ({ s with moduleId := text }, c)
  | .fixed => return (s, c)
  | .time =>
    let (timestamp, c) ← timeValue policy w.now c
    return ({ s with timestamp := timestamp }, c)
  | .registers =>
    let rest ← c.rest
    let (pcrs, consumed) ← registers rest
    let c ← passOver c consumed .registersNotPassed
    return ({ s with pcrs := some pcrs }, c)
  | .certificate =>
    let (enclave, c) ← certificateValue c
    return ({ s with certificate := enclave }, c)
  | .bundle =>
    let rest ← c.rest
    let (key, consumed) ← chain w s.certificate rest
    let c ← passOver c consumed .bundleNotPassed
    return ({ s with enclaveKey := some key }, c)
  | .optional =>
    let (value, c) ← optionalValue f c
    let s ← s.store value
    return (s, c)

/-- Reads fields one after another. -/
def readFields (w : Walk) (policy : AgePolicy) (fields : List Field)
    (s : Record) (c : Cursor) : Consult (Record × Cursor) :=
  fields.foldlM (fun (s, c) f => readField w policy s c f) (s, c)

/-- What the record states after the last field. -/
def finish (payload : Bytes) (s : Record) (c : Cursor) : Run Statement := do
  require (c.isEmpty = true)
    (Refusal.trailingOrMissingData c.pos payload.length)
  match s.pcrs, s.enclaveKey with
  | some pcrs, some key =>
    return {
      moduleId := s.moduleId
      timestamp := s.timestamp
      pcrs := pcrs
      enclaveKey := key
      publicKey := s.publicKey
      userData := s.userData
      nonce := s.nonce }
  | _, _ => liftM (Except.error .fieldNotSet : Checked Statement)

def statement (w : Walk) (policy : AgePolicy) (payload : Bytes) :
    Consult Statement := do
  let c ← want ((Cursor.ofBytes payload).eat Statement.mapHeader)
    (return .unexpectedField .mapHeader)
  let (s, c) ← readFields w policy Field.all .start c
  finish payload s c

-- ===================================================== rows of the table

open Cursor

variable {α γ δ ρ : Type} {data : Bytes} {c : Cursor} {r : Reader}
  {f : Field} {w : Walk} {policy : AgePolicy} {s : Record}

/-- What a field holds was set, and the cursor is at the reader's
place. -/
def Sets (data : Bytes) (set : α → Record) (p : Record × Cursor)
    (q : α × Reader) : Prop :=
  p.1 = set q.1 ∧ Tracks data p.2 q.2

/-- The record after a row, and the value that it holds. -/
theorem Sets.cases {set : α → Record} {p : Record × Cursor}
    {q : α × Reader} (h : Sets data set p q) :
    ∃ a c r, p = (set a, c) ∧ q = (a, r) ∧ Tracks data c r := by
  obtain ⟨s, c⟩ := p
  obtain ⟨a, r⟩ := q
  obtain ⟨hset, h⟩ := h
  cases hset
  exact ⟨a, c, r, rfl, rfl, h⟩

/-- A value is set as it was read. -/
theorem Agrees.sets {x : Run (α × Cursor)} {y : Except Refusal (α × Reader)}
    {T : α → Cursor → Reader → Prop} (set : α → Record)
    (hx : Agrees (With T) x y) (hT : ∀ a c r, T a c r → Tracks data c r) :
    Lockstep (Sets data set)
      ((liftM x : Consult (α × Cursor)) >>= fun p => pure (set p.1, p.2))
      (liftM y) := by
  cases hx with
  | ok h =>
    obtain ⟨a, c, r, rfl, rfl, hplace⟩ := h.cases
    exact .done ⟨rfl, hT a c r hplace⟩
  | error reason => exact .refused reason

/-- As many bytes as there are can be passed over. -/
theorem exists_passOver {consumed : Nat} (fault : Fault)
    (h : Tracks data c r) (hle : consumed ≤ r.rest.length) :
    ∃ c' r', passOver c consumed fault = .ok c'
      ∧ r.skip? consumed = some r' ∧ Tracks data c' r' := by
  have hplain : r.skip? consumed
      = some ⟨r.position + consumed, r.rest.drop consumed⟩ := by
    rw [Reader.skip?, Reader.take?_of_le hle]
    rfl
  rcases (h.skip consumed).cases with ⟨c', r', hc, hr, h'⟩ | ⟨-, hnone⟩
  · refine ⟨c', r', ?_, hr, h'⟩
    rw [passOver, hc]
    rfl
  · rw [hplain] at hnone
    cases hnone

/-- The first row sets the name. -/
theorem readField_moduleId (h : Tracks data c r) :
    Lockstep (Sets data fun text => { s with moduleId := text })
      (readField w policy s c .moduleId)
      (liftM (Statement.readModuleId r)) := by
  unfold readField Statement.readModuleId
  refine Lockstep.seq (expect_agrees h rfl) fun c r h => ?_
  exact (textValue_agrees h).sets _ fun _ _ _ h => h

/-- The second one sets nothing. -/
theorem readField_digest (h : Tracks data c r) :
    Lockstep (fun p r => p.1 = s ∧ Tracks data p.2 r)
      (readField w policy s c .digest)
      (liftM (Statement.expect .digest r)) := by
  have hexpect := expect_agrees h (f := .digest) rfl
  unfold readField
  rw [← bind_pure (liftM (Statement.expect .digest r) : Inquiry Reader)]
  exact (Lockstep.lift hexpect).bind fun c r h => .done ⟨rfl, h⟩

/-- The third one sets the time, if it is accepted. -/
theorem readField_timestamp (h : Tracks data c r) :
    Lockstep (Sets data fun timestamp => { s with timestamp := timestamp })
      (readField w policy s c .timestamp)
      (liftM
        (Statement.expect .timestamp r >>= judgedTime policy.rule w.now)) := by
  unfold readField
  refine Lockstep.seq (expect_agrees h rfl) fun c r h => ?_
  exact (timeValue_agrees policy w.now h).sets _ fun _ _ _ h => h

/-- The registers that were read are there to be passed over. -/
theorem readField_pcrs (h : Tracks data c r) :
    Lockstep (Sets data fun pcrs => { s with pcrs := some pcrs })
      (readField w policy s c .pcrs) (liftM (Statement.readPcrs r)) := by
  unfold readField
  refine Lockstep.seq (y := .ok r) (g := Statement.readPcrs)
    (expect_pcrs h) fun c r h => ?_
  unfold Statement.readPcrs
  refine Lockstep.check h.rest ?_
  refine Lockstep.seq (registers_agrees r.rest) fun p q hread => ?_
  obtain ⟨pcrs, consumed⟩ := p
  obtain ⟨hsame, hle⟩ := hread
  cases hsame
  obtain ⟨c', r', hpass, hskip, h'⟩ :=
    exists_passOver .registersNotPassed h hle
  dsimp only
  rw [hskip]
  exact Lockstep.check hpass (.done ⟨rfl, h'⟩)

/-- The fifth one sets the certificate. -/
theorem readField_certificate (h : Tracks data c r) :
    Lockstep
      (fun p q => Sets data (fun enclave => { s with certificate := enclave })
        p q ∧ q.1.length < 65536)
      (readField w policy s c .certificate)
      (liftM (Statement.readCertificate r)) := by
  unfold readField Statement.readCertificate
  refine Lockstep.seq (expect_agrees h rfl) fun c r h => ?_
  rw [← bind_pure (liftM _ : Inquiry (Bytes × Reader))]
  refine (Lockstep.lift (certificateValue_agrees h)).bind_with
    fun enclave c r h => ?_
  exact .done ⟨⟨rfl, h.2⟩, h.1⟩

/-- The bundle that was walked is there to be passed over. -/
theorem readField_cabundle (h : Tracks data c r)
    (hsmall : s.certificate.length < 65536) :
    Lockstep (Sets data fun key => { s with enclaveKey := some key })
      (readField w policy s c .cabundle)
      (Statement.readBundle w s.certificate r) := by
  unfold readField Statement.readBundle
  refine (Lockstep.lift (expect_agrees h rfl)).bind fun c r h => ?_
  have hrest : r.rest.length < 65536 := by
    have hall := h.length_eq
    have hdata := h.small
    rw [Reader.remaining] at hall
    omega
  refine Lockstep.check h.rest ?_
  refine (chain_lockstep hsmall hrest).bind fun p q hwalk => ?_
  obtain ⟨key, consumed⟩ := p
  obtain ⟨hsame, hle⟩ := hwalk
  cases hsame
  obtain ⟨c', r', hpass, hskip, h'⟩ := exists_passOver .bundleNotPassed h hle
  dsimp only
  rw [hskip]
  exact Lockstep.check hpass (.done ⟨rfl, h'⟩)

/-- An optional value is set in the next place, if there is one. -/
theorem readField_optional {set : Option Bytes → Record}
    (hkind : valueKind f = .optional) (hkey : tableKey f = f.opening)
    (hstore : ∀ value, s.store value = .ok (set value))
    (h : Tracks data c r) :
    Lockstep (Sets data set) (readField w policy s c f)
      (liftM (Statement.readOptional f r)) := by
  unfold readField
  rw [readOptional_eq, hkind]
  refine Lockstep.seq (expect_agrees h hkey) fun c r h => ?_
  have hvalue := (optionalValue_agrees (f := f) h).sets set fun _ _ _ h => h
  have hset : (fun p : Option Bytes × Cursor =>
      (liftM (s.store p.1) : Consult Record) >>= fun s =>
        (pure (s, p.2) : Consult (Record × Cursor)))
      = fun p => pure (set p.1, p.2) := by
    funext p
    rw [hstore]
    rfl
  rw [← hset] at hvalue
  exact hvalue

/-- The first of the optional values goes to the first place. -/
theorem readField_publicKey (hfilled : s.filled = 0)
    (h : Tracks data c r) :
    Lockstep (Sets data fun value =>
        { s with publicKey := value, filled := 1 })
      (readField w policy s c .publicKey)
      (liftM (Statement.readOptional .publicKey r)) := by
  refine readField_optional rfl rfl (fun value => ?_) h
  rw [Record.store, hfilled]
  rfl

/-- The second optional value goes to the second place. -/
theorem readField_userData (hfilled : s.filled = 1)
    (h : Tracks data c r) :
    Lockstep (Sets data fun value =>
        { s with userData := value, filled := 2 })
      (readField w policy s c .userData)
      (liftM (Statement.readOptional .userData r)) := by
  refine readField_optional rfl rfl (fun value => ?_) h
  rw [Record.store, hfilled]
  rfl

/-- The third optional value goes to the last place. -/
theorem readField_nonce (hfilled : s.filled = 2) (h : Tracks data c r) :
    Lockstep (Sets data fun value => { s with nonce := value, filled := 3 })
      (readField w policy s c .nonce)
      (liftM (Statement.readOptional .nonce r)) := by
  refine readField_optional rfl rfl (fun value => ?_) h
  rw [Record.store, hfilled]
  rfl

-- ====================================================== the whole table

/-- The fields before the bundle, the time as one field with its
judgement. -/
theorem readFront_eq_judged (accepts : AgeRule) (now : UInt64)
    (r : Reader) :
    Statement.readFront accepts now r = (do
      let r ← demand (r.pass? Statement.mapHeader)
        (.unexpectedField .mapHeader)
      let (moduleId, r) ← Statement.readModuleId r
      let r ← Statement.expect .digest r
      let (timestamp, r) ←
        Statement.expect .timestamp r >>= judgedTime accepts now
      let (pcrs, r) ← Statement.readPcrs r
      let (certificate, r) ← Statement.readCertificate r
      return (⟨moduleId, timestamp, pcrs, certificate⟩, r)) := by
  unfold Statement.readFront Statement.readTimestamp judgedTime
  simp only [bind_assoc, pure_bind]

/-- A row, and then what follows it in the front. -/
theorem Lockstep.front_sets {S : γ → δ → Prop} {set : α → Record}
    {x : Consult (Record × Cursor)} {y : Except Refusal (α × Reader)}
    {f : Record × Cursor → Consult γ}
    {g : α × Reader → Except Refusal ρ} {next : ρ → Inquiry δ}
    (hx : Lockstep (Sets data set) x (liftM y : Inquiry (α × Reader)))
    (hf : ∀ a c r, Tracks data c r →
      Lockstep S (f (set a, c)) ((liftM (g (a, r)) : Inquiry ρ) >>= next)) :
    Lockstep S (x >>= f) ((liftM (y >>= g) : Inquiry ρ) >>= next) := by
  refine hx.front fun p q hset => ?_
  obtain ⟨a, c, r, rfl, rfl, h⟩ := hset.cases
  exact hf a c r h

/-- The loop takes one row at a time. -/
theorem readFields_cons_bind (f : Field) (fields : List Field) (s : Record)
    (c : Cursor) (next : Record × Cursor → Consult α) :
    readFields w policy (f :: fields) s c >>= next
      = readField w policy s c f >>= fun p =>
          readFields w policy fields p.1 p.2 >>= next := by
  rw [readFields, List.foldlM_cons, bind_assoc]
  rfl

/-- The record after the nine fields. -/
def Record.ofParts (front : Statement.Front) (key : PublicKey)
    (back : Statement.Back) : Record :=
  ⟨front.moduleId, front.timestamp, some front.pcrs, front.certificate,
   some key, back.publicKey, back.userData, back.nonce, 3⟩

/-- All that a statement needs was set then. -/
theorem finish_lockstep {payload : Bytes} (front : Statement.Front)
    (key : PublicKey) (back : Statement.Back) (h : Tracks payload c r) :
    Lockstep Eq
      (liftM (finish payload (.ofParts front key back) c) : Consult Statement)
      ((liftM (require (r.isEmpty = true) r.missing >>= fun _ =>
          (pure back : Except Refusal Statement.Back)) :
            Inquiry Statement.Back) >>= fun back =>
        pure (Statement.ofParts front key back)) := by
  have hmissing : Refusal.trailingOrMissingData c.pos payload.length
      = r.missing := by
    rw [h.length_eq, h.position_eq]
    rfl
  unfold finish
  rw [h.isEmpty_eq, hmissing]
  cases require (r.isEmpty = true) r.missing with
  | ok _ => exact .done rfl
  | error reason => exact .refused reason

/-- The whole table is read as the payload is, and nothing is left
unset. -/
theorem statement_lockstep {payload : Bytes}
    (hsmall : payload.length < 65536) :
    Lockstep Eq (statement w policy payload)
      (Statement.read w policy.rule payload) := by
  unfold statement Statement.read
  rw [readFront_eq_judged]
  refine Lockstep.front (Lockstep.lift (Agrees.want
    ((Tracks.ofBytes hsmall).eat (by decide)) rfl)) fun c r h => ?_
  rw [Field.all, readFields_cons_bind]
  refine (readField_moduleId h).front_sets fun moduleId c r h => ?_
  rw [readFields_cons_bind]
  refine (readField_digest h).front fun p r hdigest => ?_
  obtain ⟨s, c⟩ := p
  obtain ⟨hs, h⟩ := hdigest
  cases hs
  rw [readFields_cons_bind]
  refine (readField_timestamp h).front_sets fun timestamp c r h => ?_
  rw [readFields_cons_bind]
  refine (readField_pcrs h).front_sets fun pcrs c r h => ?_
  rw [readFields_cons_bind]
  refine (readField_certificate h).front fun p q hcertificate => ?_
  obtain ⟨hset, henclave⟩ := hcertificate
  obtain ⟨enclave, c, r, rfl, rfl, h⟩ := hset.cases
  rw [readFields_cons_bind]
  -- the walk asks, so from here on the rest is an inquiry
  show Lockstep Eq _ (Statement.readBundle w enclave r >>= fun p =>
    (liftM (Statement.readBack p.2) : Inquiry Statement.Back) >>= fun back =>
      pure (Statement.ofParts ⟨moduleId, timestamp, pcrs, enclave⟩ p.1 back))
  refine (readField_cabundle h henclave).bind fun p q hbundle => ?_
  obtain ⟨key, c, r, rfl, rfl, h⟩ := hbundle.cases
  rw [readFields_cons_bind]
  unfold Statement.readBack
  refine (readField_publicKey rfl h).front_sets fun publicKey c r h => ?_
  rw [readFields_cons_bind]
  refine (readField_userData rfl h).front_sets fun userData c r h => ?_
  rw [readFields_cons_bind]
  refine (readField_nonce rfl h).front_sets fun nonce c r h => ?_
  exact finish_lockstep ⟨moduleId, timestamp, pcrs, enclave⟩ key
    ⟨publicKey, userData, nonce⟩ h

end Machine

end Attestation
