import Attestation.Bytes.Script
import Attestation.Main
import Attestation.Session
import Attestation.Proofs.Certificate.Layout
import Attestation.Proofs.Signature.Path
import Attestation.Proofs.Trust.Framing
import Attestation.Proofs.Trust.Linkage
import Attestation.Proofs.Trust.Chain
import Attestation.Proofs.Text.Utf8
import Attestation.Proofs.Document.Envelope
import Attestation.Proofs.Document.Fields
import Attestation.Proofs.Document.Payload
import Attestation.Proofs.Verification.Stages
import Attestation.Proofs.Verification.Consultation
import Attestation.Proofs.Verification.FullTrust
import Attestation.Proofs.Certificate.Plain
import Attestation.Proofs.Document.Modes
import Attestation.Proofs.Time.Window
import Attestation.Proofs.Verification.Interval
import Attestation.Proofs.Refusal.FirstFailure
import Attestation.Proofs.Refusal.Phases
import Attestation.Proofs.Verification.Rules
import Attestation.Proofs.Bytes.Shortfall
import Attestation.Proofs.Document.Extent
import Attestation.Proofs.Document.Unread
import Attestation.Proofs.Machine.Checked
import Attestation.Proofs.Machine.Cursor
import Attestation.Proofs.Machine.Calendar
import Attestation.Proofs.Machine.Certificate
import Attestation.Proofs.Machine.Walk
import Attestation.Proofs.Machine.Record
import Attestation.Proofs.Machine.Verification
import Attestation.Proofs.Document.Cbor
import Attestation.Proofs.Document.Signed
import Attestation.Proofs.Hash.Pieces
import Attestation.Proofs.CommandLine.Items
import Attestation.Proofs.Trust.Expectations
import Attestation.Proofs.Verification.Resealing
import Attestation.Proofs.CommandLine.Expectations
import Attestation.Proofs.CommandLine.ExpectedRegisters
import Attestation.Proofs.Time.DayCount
import Attestation.Proofs.CommandLine.Inspection
import Attestation.Proofs.Session.LatestParts
import Attestation.Proofs.CommandLine.Encodings
import Attestation.Proofs.CommandLine.Formats
import Attestation.Proofs.Time.Spelling
import Attestation.Proofs.Trust.Loading
import Attestation.Proofs.Certificate.Period
import Attestation.Proofs.Certificate.Names
import Attestation.Proofs.Certificate.Overwriting
import Attestation.Proofs.Document.Stride
import Attestation.Proofs.Document.FieldOrder
import Attestation.Proofs.Trust.BrokenLink
import Attestation.Proofs.CommandLine.Age
import Attestation.Proofs.Signature.Encodings
import Attestation.Proofs.Text.Blank
import Attestation.Proofs.Text.Decimal
import Attestation.Proofs.Trust.Variables
import Attestation.Proofs.Text.JsonGrammar
import Attestation.Proofs.Text.JsonLayout
import Attestation.Proofs.CommandLine.PrintedReport
import Attestation.Proofs.CommandLine.ExpectationText
import Attestation.Proofs.Machine.Operations
