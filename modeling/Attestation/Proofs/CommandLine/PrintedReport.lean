/-
What the command to verify prints is JSON that says all of what was
verified. `statementOf?` reads a statement from a report on it, by the
names of the fields and whatever their order, and the report on a
statement is read as the statement. Since the printed text is no other
value's (`Json.spells_pretty_iff`), the text has the statement in full,
and different statements are printed differently
(`verify_prints_everything`).

The reader of reports is there for the proof, and is as small as it can
be: one function for each kind of field, each undone by what writes the
field. That fields are found by name (`field?`) makes it a reader in the
sense of JSON, where objects have no order. A reader that takes the
fields one after another would be easier to prove correct, and would say
less about what is printed.

An absent field and an empty one must be told apart, which is what
`optionalBytesOf?_optionalBytes` is for: the one is written as null and
the other as an empty text. Registers are an object with decimal names,
and the names have to be different for them to be found again.
-/
import Attestation.Proofs.CommandLine.ExpectedRegisters
import Attestation.Proofs.Text.JsonLayout

namespace Attestation

namespace Report

-- =================================================== reading a report

/-- The value of a field, if there is one field with the name. -/
def field? (name : String) (fields : List (String × Json)) : Option Json :=
  match fields.filter fun field => field.1 == name with
  | [(_, value)] => some value
  | _ => none

def textOf? : Json → Option String
  | .text text => some text
  | _ => none

def wordOf? : Json → Option UInt64
  | .number n => if n < UInt64.size then some (UInt64.ofNat n) else none
  | _ => none

/-- The bytes that a text spells in hexadecimal. -/
def bytesOf? : Json → Option Bytes
  | .text text => (Hex.decode (Utf8.encode text.toList)).toOption
  | _ => none

/-- Null stands for no bytes at all. -/
def optionalBytesOf? : Json → Option (Option Bytes)
  | .null => some none
  | value => (bytesOf? value).map some

def fixedOf? (n : Nat) (value : Json) : Option (FixedBytes n) := do
  FixedBytes.ofList? n (← bytesOf? value)

/-- Registers under their names. -/
def registersOf? : Json → Option Pcrs
  | .object fields => do
    let register (slot : Slot) : Option Pcr := do
      fixedOf? 48 (← field? ("pcr" ++ toString slot.index) fields)
    return ⟨← register .pcr0, ← register .pcr1, ← register .pcr2,
      ← register .pcr3, ← register .pcr4, ← register .pcr8⟩
  | _ => none

/-- The statement that a report is on. -/
def statementOf? : Json → Option Statement
  | .object fields => do
    return {
      moduleId := ← textOf? (← field? "module_id" fields)
      timestamp := ← wordOf? (← field? "timestamp" fields)
      pcrs := ← registersOf? (← field? "pcrs" fields)
      enclaveKey := ← fixedOf? 97 (← field? "enclave_key" fields)
      publicKey := ← optionalBytesOf? (← field? "public_key" fields)
      userData := ← optionalBytesOf? (← field? "user_data" fields)
      nonce := ← optionalBytesOf? (← field? "nonce" fields) }
  | _ => none

/-- A text is JSON, and a report on a statement. -/
def Tells (text : String) (s : Statement) : Prop :=
  ∃ value, Json.Spells text.toList value ∧ statementOf? value = some s

-- ============================================== reading what was written

/-- Bytes are found again from their digits. -/
theorem bytesOf?_bytes (data : Bytes) :
    bytesOf? (bytes data) = some data := by
  rw [bytes, bytesOf?, Hex.decode_text]
  rfl

/-- What is absent is told apart from what is empty. -/
theorem optionalBytesOf?_optionalBytes (data : Option Bytes) :
    optionalBytesOf? (optionalBytes data) = some data := by
  cases data with
  | none => rfl
  | some data =>
    show (bytesOf? (bytes data)).map some = _
    rw [bytesOf?_bytes]
    rfl

theorem fixedOf?_bytes {n : Nat} (value : FixedBytes n) :
    fixedOf? n (bytes value.toList) = some value := by
  rw [fixedOf?, bytesOf?_bytes]
  exact FixedBytes.ofList?_toList value

theorem wordOf?_number (word : UInt64) :
    wordOf? (.number word.toNat) = some word := by
  rw [wordOf?, if_pos word.toNat_lt, UInt64.ofNat_toNat]

/-- Registers are found again from their names. -/
theorem registersOf?_registers (pcrs : Pcrs) :
    registersOf? (registers pcrs) = some pcrs := by
  obtain ⟨fields, hfields⟩ : ∃ fields, registers pcrs = .object fields :=
    ⟨_, rfl⟩
  have hfield (slot : Slot) :
      field? ("pcr" ++ toString slot.index) fields
        = some (bytes (pcrs.value slot).toList) := by
    cases hfields
    cases slot <;> rfl
  rw [hfields, registersOf?]
  simp only [hfield, Option.bind_eq_bind, Option.bind_some, fixedOf?_bytes]
  rfl

/-- No two fields of a report have one name. -/
theorem statementOf?_verification (s : Statement) :
    statementOf? (verification s) = some s := by
  have hmodule : field? "module_id" (fields s) = some (.text s.moduleId) :=
    rfl
  have htime : field? "timestamp" (fields s)
      = some (.number s.timestamp.toNat) :=
    rfl
  have hpcrs : field? "pcrs" (fields s) = some (registers s.pcrs) := rfl
  have hkey : field? "enclave_key" (fields s)
      = some (bytes s.enclaveKey.toList) :=
    rfl
  have hpublic : field? "public_key" (fields s)
      = some (optionalBytes s.publicKey) :=
    rfl
  have hdata : field? "user_data" (fields s)
      = some (optionalBytes s.userData) :=
    rfl
  have hnonce : field? "nonce" (fields s) = some (optionalBytes s.nonce) :=
    rfl
  unfold statementOf? verification
  dsimp only
  simp only [hmodule, htime, hpcrs, hkey, hpublic, hdata, hnonce,
    Option.bind_eq_bind, Option.bind_some, wordOf?_number,
    registersOf?_registers, fixedOf?_bytes, optionalBytesOf?_optionalBytes,
    textOf?]
  rfl

/-- The text of a report on a statement tells that statement alone. -/
theorem tells_verification_iff {s t : Statement} :
    Tells ((verification s).pretty ++ "\n") t ↔ t = s := by
  constructor
  · rintro ⟨value, hspells, hread⟩
    rw [Json.spells_pretty_iff.1 hspells, statementOf?_verification] at hread
    exact (Option.some.inj hread).symm
  · rintro rfl
    exact ⟨verification t, Json.spells_pretty_iff.2 rfl,
      statementOf?_verification t⟩

end Report

namespace CommandLine

/-- What is printed tells statements apart. -/
theorem accepted_stdout_inj {s t : Statement}
    (h : (accepted s).stdout = (accepted t).stdout) : s = t := by
  have htells : Report.Tells (accepted t).stdout s := by
    rw [← h]
    exact Report.tells_verification_iff.2 rfl
  exact Report.tells_verification_iff.1 htells

/-- What is printed about an accepted document spells one JSON value,
the report on the statement, and tells that statement alone. So
different statements are printed differently, also those in which an
optional byte string is absent or empty. And a run of the command to
verify that ends well, unless it was asked for help, has printed the
statement of the document that it verified. -/
theorem verify_prints_everything :
    (∀ s,
        (∀ value, Json.Spells (accepted s).stdout.toList value
            ↔ value = Report.verification s)
          ∧ ∀ t, Report.Tells (accepted s).stdout t ↔ t = s)
      ∧ (∀ s t, (accepted s).stdout = (accepted t).stdout → s = t)
      ∧ (∀ s : Statement,
        (accepted { s with publicKey := none }).stdout
            ≠ (accepted { s with publicKey := some [] }).stdout
          ∧ (accepted { s with userData := none }).stdout
            ≠ (accepted { s with userData := some [] }).stdout
          ∧ (accepted { s with nonce := none }).stdout
            ≠ (accepted { s with nonce := some [] }).stdout)
      ∧ ∀ world arguments,
        (run world ("verify" :: arguments)).exitCode = 0 →
        (∃ entries g, Says arguments true entries g)
          ∨ ∃ entries g input s, Says arguments false entries g
            ∧ g.input? = some input
            ∧ Verifies world input g.maxAge entries s
            ∧ ∀ t, Report.Tells (run world ("verify" :: arguments)).stdout t
              ↔ t = s := by
  refine ⟨?_, ?_, ?_, ?_⟩
  · intro s
    exact ⟨fun value => Json.spells_pretty_iff,
      fun t => Report.tells_verification_iff⟩
  · intro s t h
    exact accepted_stdout_inj h
  · intro s
    refine ⟨fun h => ?_, fun h => ?_, fun h => ?_⟩
    · cases congrArg Statement.publicKey (accepted_stdout_inj h)
    · cases congrArg Statement.userData (accepted_stdout_inj h)
    · cases congrArg Statement.nonce (accepted_stdout_inj h)
  · intro world arguments h
    rcases ends_of_exitCode h with hhelp
      | ⟨entries, g, input, s, hsays, hinput, hverifies⟩
    · exact Or.inl hhelp
    · refine Or.inr ⟨entries, g, input, s, hsays, hinput, hverifies, ?_⟩
      intro t
      rw [run_of_verifies hsays hinput hverifies]
      exact Report.tells_verification_iff

end CommandLine

end Attestation
