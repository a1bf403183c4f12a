/-
What a command line asks for, and what it can get wrong. There are two
commands. Both take a file and three options; verifying takes two more,
which say what the caller accepts.
-/
import Attestation.CommandLine.Encoding
import Attestation.CommandLine.Expectation
import Attestation.Text.Terminal

namespace Attestation

/-- What to do with a document. -/
inductive Command where
  /-- Verify it under the caller's rules. -/
  | verify
  /-- Verify it under rules that accept everything, and show more of
  it. -/
  | inspect
deriving DecidableEq

def Command.name : Command → String
  | .verify => "verify"
  | .inspect => "inspect"

def Command.ofName? (name : String) : Option Command :=
  [Command.verify, .inspect].find? fun command => command.name == name

-- ========================================================= arguments

/-- An option that takes a value. -/
inductive Choice where
  | format
  | now
  | maxAge
  | expectPcr
deriving DecidableEq

/-- The word for an option, without its two dashes. -/
def Choice.name : Choice → String
  | .format => "format"
  | .now => "now"
  | .maxAge => "max-age-secs"
  | .expectPcr => "expect-pcr"

/-- How an option and its value are shown. -/
def Choice.shown : Choice → String
  | .format => "--format <FORMAT>"
  | .now => "--now <NOW>"
  | .maxAge => "--max-age-secs <MAX_AGE_SECS>"
  | .expectPcr => "--expect-pcr <EXPECT_PCR>"

/-- An argument that a command knows. -/
inductive Argument where
  | file
  | option (choice : Choice)
  | fullChain
  | help
  | version
deriving DecidableEq

def Argument.shown : Argument → String
  | .file => "<FILE>"
  | .option choice => choice.shown
  | .fullChain => "--full-chain"
  | .help => "--help"
  | .version => "--version"

def Command.options : Command → List (String × Argument)
  | .verify =>
    [Choice.format, .now, .maxAge, .expectPcr].map named ++ others
  | .inspect => [Choice.format, .now].map named ++ others
where
  /-- An option by its name. -/
  named (choice : Choice) : String × Argument :=
    (choice.name, .option choice)
  /-- The options without a value. -/
  others : List (String × Argument) :=
    [("full-chain", .fullChain), ("help", .help)]

-- ========================================================== mistakes

/-- Why the value of an option is refused. -/
inductive ChoiceFault where
  | unknownWord
  | number (fault : Decimal.Fault)
  | expectation (fault : Expectation.Fault)
deriving DecidableEq

/-- What is wrong with a command line. -/
inductive UsageError where
  | unexpectedArgument (shown : String)
  | unknownCommand (word : String)
  /-- A value for an argument that takes none. -/
  | unexpectedValue (value : String) (argument : Argument)
  | missingValue (argument : Argument)
  | repeated (argument : Argument)
  | badValue (value : String) (choice : Choice) (fault : ChoiceFault)
  | missingFile
deriving DecidableEq

/-- The words for a mistake, with marks for a terminal. What the user
wrote stands between marks, but for the words of an expectation's
fault, which may repeat it without. -/
def UsageError.message : UsageError → String
  | .unexpectedArgument shown =>
    "unexpected argument '" ++ wrong shown ++ "' found"
  | .unknownCommand word =>
    "unrecognized subcommand '" ++ wrong word ++ "'"
  | .unexpectedValue value argument =>
    "unexpected value '" ++ wrong value ++ "' for '"
      ++ literal argument.shown ++ "' found; no more were expected"
  | .missingValue argument =>
    "a value is required for '" ++ wrong argument.shown
      ++ "' but none was supplied"
  | .repeated argument =>
    "the argument '" ++ wrong argument.shown
      ++ "' cannot be used multiple times"
  | .badValue value choice fault =>
    "invalid value '" ++ wrong value ++ "' for '"
      ++ literal choice.shown ++ "'"
      ++ match fault with
        | .unknownWord => ""
        | .number fault => ": " ++ fault.message
        | .expectation fault => ": " ++ fault.message value
  | .missingFile => "the following required arguments were not provided:"
where
  /-- A text that is not as it should be. -/
  wrong := Terminal.Style.wrong.apply
  /-- A text to be written as it stands. -/
  literal := Terminal.Style.literal.apply

/-- The words for a mistake between those that announce it and those
that point to the help. -/
def UsageError.report (e : UsageError) : String :=
  Terminal.Style.alarm.apply "error:" ++ " " ++ e.message
    ++ "\n\nFor more information, try '"
    ++ Terminal.Style.literal.apply "--help" ++ "'.\n"

-- ========================================================== requests

/-- What both commands are given. -/
structure Input where
  file : String
  encoding : Encoding
  fullChain : Bool
  /-- The time to use instead of the clock's, in seconds since 1970. -/
  now : Option UInt64
deriving DecidableEq

/-- What a command line asks for. -/
inductive Request where
  | verify (input : Input) (maxAge : Option UInt64)
      (expected : List (UInt8 × Pcr))
  | inspect (input : Input)
deriving DecidableEq

def Request.input : Request → Input
  | .verify input _ _ => input
  | .inspect input => input

def Request.command : Request → Command
  | .verify _ _ _ => .verify
  | .inspect _ => .inspect

end Attestation
