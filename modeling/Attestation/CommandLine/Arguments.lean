/-
Reading a command line, argument by argument from the left.

The value of an option may follow an equals sign or stand in the next
argument. A value that stands apart, like the name of the file, is
looked at only when the argument after it is recognised or the line
ends; so an argument that nothing takes is reported before a bad value
that stands right before it, and after every other one. For one
argument, a missing value is reported before a repetition, and a
repetition before a bad value.

After two bare dashes every argument is the name of a file.
-/
import Attestation.CommandLine.Request

namespace Attestation

/-- Why reading a command line ends without a request. -/
inductive Halt where
  | mistake (error : UsageError)
  | help
  | noCommand
deriving DecidableEq

namespace CommandLine

-- =================================================== kinds of argument

/-- An argument by its looks. -/
inductive Word where
  | escape
  /-- A name after two dashes, and what follows its equals sign. -/
  | long (name : String) (attached : Option String)
  /-- A letter after one dash. -/
  | short (letter : Char)
  /-- Anything else, a lone dash among it. -/
  | plain
deriving DecidableEq

def Word.classify (argument : String) : Word :=
  match argument.toList with
  | ['-', '-'] => .escape
  | '-' :: '-' :: rest =>
    .long (String.ofList (rest.takeWhile (· != '=')))
      (match rest.dropWhile (· != '=') with
      | [] => none
      | _ :: value => some (String.ofList value))
  | '-' :: letter :: _ => .short letter
  | _ => .plain

-- ================================================= what values settle

/-- What the arguments so far have settled. -/
structure Given where
  file : Option String
  encoding : Option Encoding
  fullChain : Bool
  now : Option UInt64
  maxAge : Option UInt64
  expected : List (UInt8 × Pcr)

def Given.nothing : Given :=
  ⟨none, none, false, none, none, []⟩

/-- A number of at most 64 bits as the value of an option. -/
def number (choice : Choice) (value : String) :
    Except UsageError UInt64 :=
  (Decimal.parseWord value.toList).mapError fun fault =>
    .badValue value choice (.number fault)

/-- Settles the value of an option. -/
def Given.settle (g : Given) (choice : Choice) (value : String) :
    Except UsageError Given :=
  match choice with
  | .format => do
    require (g.encoding = none) (.repeated (.option .format))
    require (value ≠ "") (.missingValue (.option .format))
    let encoding ← demand (Encoding.ofName? value)
      (.badValue value .format .unknownWord)
    return { g with encoding := some encoding }
  | .now => do
    require (g.now = none) (.repeated (.option .now))
    let now ← number .now value
    return { g with now := some now }
  | .maxAge => do
    require (g.maxAge = none) (.repeated (.option .maxAge))
    let maxAge ← number .maxAge value
    return { g with maxAge := some maxAge }
  | .expectPcr => do
    let entry ← (Expectation.parse value).mapError fun fault =>
      .badValue value .expectPcr (.expectation fault)
    return { g with expected := g.expected ++ [entry] }

/-- What was read but not looked at yet. -/
inductive Pending where
  | nothing
  | file (name : String)
  /-- An option, and its value if that was read already. -/
  | option (choice : Choice) (value : Option String)

def Pending.settle (g : Given) : Pending → Except UsageError Given
  | .nothing => .ok g
  | .file name => do
    require (name ≠ "") (.missingValue .file)
    return { g with file := some name }
  | .option choice none => .error (.missingValue (.option choice))
  | .option choice (some value) => g.settle choice value

-- ======================================================== one command

/-- Where reading the arguments of a command stands. -/
structure State where
  given : Given
  pending : Pending
  /-- Whether two bare dashes were read. -/
  escaped : Bool

def State.start : State :=
  ⟨.nothing, .nothing, false⟩

/-- Looks at what is pending, because something else follows. -/
def State.settled (s : State) : Except Halt State := do
  let given ← (s.pending.settle s.given).mapError Halt.mistake
  return { s with given := given, pending := .nothing }

/-- Reads an argument without a dash, or after two bare ones: the value
of the option before it, or else the name of the file. -/
def State.readPlain (s : State) (argument : String) :
    Except Halt State :=
  match s.escaped, s.pending with
  | false, .option choice none =>
    .ok { s with pending := .option choice (some argument) }
  | _, .file _ => .error (.mistake (.unexpectedArgument argument))
  | _, _ => do
    require (s.given.file = none)
      (.mistake (.unexpectedArgument argument))
    let s ← s.settled
    return { s with pending := .file argument }

/-- Reads an option that its command takes. -/
def State.readOption (s : State) (argument : Argument)
    (attached : Option String) : Except Halt State :=
  match argument, attached with
  | .option choice, some value => do
    let s ← s.settled
    let given ← (s.given.settle choice value).mapError Halt.mistake
    return { s with given := given }
  | .option choice, none => do
    let s ← s.settled
    return { s with pending := .option choice none }
  | argument, some value =>
    .error (.mistake (.unexpectedValue value argument))
  | .fullChain, none => do
    let s ← s.settled
    require (s.given.fullChain = false)
      (.mistake (.repeated .fullChain))
    return { s with given.fullChain := true }
  | _, none => do
    let _ ← s.settled
    .error .help

def State.read (command : Command) (s : State) (argument : String) :
    Except Halt State :=
  match if s.escaped then Word.plain else Word.classify argument with
  | .escape => .ok { s with escaped := true }
  | .plain => s.readPlain argument
  | .short 'h' => s.readOption .help none
  | .short letter =>
    .error (.mistake (.unexpectedArgument (String.ofList ['-', letter])))
  | .long name attached =>
    match command.options.lookup name with
    | some argument => s.readOption argument attached
    | none => .error (.mistake (.unexpectedArgument ("--" ++ name)))

/-- The request that a command and its settled arguments make up. -/
def Given.request (command : Command) (g : Given) :
    Except UsageError Request := do
  let file ← demand g.file .missingFile
  let input : Input :=
    ⟨file, g.encoding.getD .raw, g.fullChain, g.now⟩
  match command with
  | .verify => return .verify input g.maxAge g.expected
  | .inspect => return .inspect input

def parseCommand (command : Command) (arguments : List String) :
    Except Halt Request := do
  let s ← arguments.foldlM (State.read command) State.start
  let s ← s.settled
  (s.given.request command).mapError Halt.mistake

-- ==================================================== the whole line

/-- Whether a word stands for a command, the one for help included. -/
def isCommand (word : String) : Bool :=
  word == "help" || (Command.ofName? word).isSome

/-- Reads what follows the command for help: at most one command. -/
def parseHelp : List String → Halt
  | [] => .help
  | word :: rest =>
    if isCommand word then
      match rest with
      | [] => .help
      | next :: _ => .mistake (.unknownCommand next)
    else
      .mistake (.unknownCommand word)

/-- Reads what follows two bare dashes in the place of the command. -/
def parseEscaped : List String → Halt
  | [] => .noCommand
  | word :: _ =>
    if isCommand word then .mistake (.unexpectedArgument word)
    else .mistake (.unknownCommand word)

/-- Reads a name after two dashes in the place of the command. -/
def parseLong (name : String) (attached : Option String) : Halt :=
  match [("help", Argument.help), ("version", .version)].lookup name with
  | none => .mistake (.unexpectedArgument ("--" ++ name))
  | some argument =>
    match attached with
    | none => .help
    | some value => .mistake (.unexpectedValue value argument)

def parse : List String → Except Halt Request
  | [] => .error .noCommand
  | word :: rest =>
    match Word.classify word with
    | .escape => .error (parseEscaped rest)
    | .short letter =>
      if letter = 'h' ∨ letter = 'V' then .error .help
      else
        .error (.mistake
          (.unexpectedArgument (String.ofList ['-', letter])))
    | .long name attached => .error (parseLong name attached)
    | .plain =>
      match Command.ofName? word with
      | some command => parseCommand command rest
      | none =>
        if word = "help" then .error (parseHelp rest)
        else .error (.mistake (.unknownCommand word))

end CommandLine

end Attestation
