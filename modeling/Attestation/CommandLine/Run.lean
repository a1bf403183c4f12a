/-
Carrying out a request: the file is read and decoded, the setup is read
from the environment, the document is verified with ECDSA as the judge
of signatures, and a report is printed. The first step that fails is
reported with what was being done and why it failed.

Everything outside the program is given as a value, so that a run is a
function of it.
-/
import Attestation.CommandLine.Arguments
import Attestation.CommandLine.FileTree
import Attestation.Refusal.Message
import Attestation.Report
import Attestation.Trust.Environment
import Attestation.Verification

namespace Attestation

/-- What a run sees of the world around it. -/
structure Surroundings where
  file : String → Except FileFault Bytes
  setting : String → Option String
  /-- What the clock shows, in seconds since 1970. -/
  clock : UInt64

/-- What a run leaves: an exit code and two texts. -/
structure Outcome where
  exitCode : Nat
  stdout : String
  stderr : String
deriving DecidableEq

-- ========================================================= failures

/-- Why a request could not be carried out. -/
inductive Failure where
  | file (name : String) (fault : FileFault)
  | encoding (fault : Encoding.Fault)
  | setup (error : SetupError)
  | document (command : Command) (name : String) (reason : Refusal)
deriving DecidableEq

namespace Failure

def context : Failure → String
  | file name _ => name ++ " を読み込めません"
  | encoding (.hexNotText _) => "16進数ファイルがUTF-8ではありません"
  | encoding (.badHex _) => "16進数のデコードに失敗"
  | encoding (.base64NotText _) =>
    "Base64ファイルがUTF-8ではありません"
  | encoding (.badBase64 _) => "Base64のデコードに失敗"
  | setup _ => "設定の読み込みに失敗"
  | document .verify name _ => name ++ " の検証に失敗"
  | document .inspect name _ => name ++ " のデコードに失敗"

def cause : Failure → String
  | file _ fault => fault.message
  | encoding (.hexNotText fault) => fault.message
  | encoding (.badHex fault) => fault.message
  | encoding (.base64NotText fault) => fault.message
  | encoding (.badBase64 fault) => fault.message
  | setup error => error.message
  | document _ _ reason => reason.message

/-- Both, as they are printed. -/
def message (f : Failure) : String :=
  "Error: " ++ f.context ++ "\n\nCaused by:\n    " ++ f.cause ++ "\n"

end Failure

-- ======================================================== execution

namespace Request

/-- The rule on age that a request asks for. The age is given in
seconds, and no document may be from the future. -/
def ageRule : Request → AgeRule
  | .verify _ (some seconds) _ =>
    AgeRule.maxAge (Saturating.mul seconds 1000) 0
  | .verify _ none _ => AgeRule.any
  | .inspect _ => AgeRule.any

def pcrRule : Request → PcrRule
  | .verify _ _ expected => (Expectations.ofList expected).accept
  | .inspect _ => PcrRule.any

def report (request : Request) (mode : TrustMode) (s : Statement) :
    Json :=
  match request with
  | .verify _ _ _ => Report.verification s
  | .inspect _ => Report.inspection s mode

def readDocument (world : Surroundings) (input : Input) :
    Except Failure Bytes := do
  let content ← (world.file input.file).mapError (.file input.file)
  (input.encoding.decode content).mapError .encoding

def readSetup (world : Surroundings) (input : Input) :
    Except Failure Setup := do
  let setup ← (Setup.load world.setting).mapError .setup
  return if input.fullChain then { setup with mode := .full } else setup

/-- Carries out a request, and gives the report. -/
def execute (world : Surroundings) (request : Request) :
    Except Failure Json := do
  let input := request.input
  let document ← readDocument world input
  let setup ← readSetup world input
  let now := input.now.getD world.clock
  let verdict :=
    (setup.verify now request.ageRule request.pcrRule
      document).run Query.holds
  let statement ← verdict.mapError
    (.document request.command input.file)
  return request.report setup.mode statement

end Request

-- ============================================================= runs

namespace CommandLine

/-- What the program is for, in a line. -/
def about : String :=
  "Command-line verifier for AWS Nitro Enclaves attestation documents"

/-- How the program is used. -/
def usage : String :=
  about ++ "\n\n" ++
  "  verify <FILE> [--format raw|hex|base64] [--full-chain]\n" ++
  "    [--now <NOW>] [--max-age-secs <MAX_AGE_SECS>]\n" ++
  "    [--expect-pcr <INDEX=HEX>]...\n" ++
  "  inspect <FILE> [--format raw|hex|base64] [--full-chain]\n" ++
  "    [--now <NOW>]\n"

/-- The first line of a text, without the line feed that ends it and a
carriage return right before that. -/
def firstLine (text : String) : String :=
  let line := text.toList.takeWhile (· != '\n')
  String.ofList
    (if line.getLast? = some '\r' then line.dropLast else line)

/-- The outcome when a command line holds no request. Of the report on
a mistake the first line that is to be seen is kept. -/
def halted : Halt → Outcome
  | .mistake error => ⟨2, "", firstLine (Terminal.visible error.report)⟩
  | .help => ⟨0, usage, ""⟩
  | .noCommand => ⟨2, "", about⟩

/-- The outcome of a request that was carried out, or of a failure. -/
def finished : Except Failure Json → Outcome
  | .ok report => ⟨0, report.pretty ++ "\n", ""⟩
  | .error failure => ⟨1, "", failure.message⟩

def run (world : Surroundings) (arguments : List String) : Outcome :=
  match parse arguments with
  | .error halt => halted halt
  | .ok request => finished (request.execute world)

end CommandLine

end Attestation
