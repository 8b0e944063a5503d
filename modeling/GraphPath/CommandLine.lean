import GraphPath.Command
import GraphPath.Json.Writer

/-!
# The command line

A command line names a command, its operands, and options.  Most options may stand in
front of the command as well as behind it, once on each side, and then the one behind the
command counts.  An option has a long form, `--input TEXT` or `--input=TEXT`, and a short
one, `-i TEXT`, `-iTEXT` or `-i=TEXT`; short forms without a value can be run together.
Behind `--` everything is an operand; a lone `-` always is one.

`CommandLine.parse` reads it into an `Invocation` or finds a `UsageError`.  An invocation
then runs on texts it is given (`Invocation.run`), so that nothing here touches a file.
-/

namespace GraphPath

/-- What is wrong with a command line. -/
inductive UsageError where
  /-- No option has this name. -/
  | unknownOption (name : String)
  /-- An option stands twice on one side of the command. -/
  | repeatedOption (name : String)
  /-- An option lacks its value. -/
  | missingValue (name : String)
  /-- An option without a value is given one. -/
  | unexpectedValue (name : String)
  /-- There is no command. -/
  | noCommand
  /-- No command has this name. -/
  | unknownCommand (name : String)
  /-- Operands are missing. -/
  | missingOperand
  /-- There are too many operands. -/
  | unexpectedOperand (text : String)
  deriving DecidableEq, Repr

/-- The wording of a usage error. -/
def UsageError.message : UsageError → String
  | .unknownOption name => "unknown option " ++ name
  | .repeatedOption name => "option " ++ name ++ " is given more than once"
  | .missingValue name => "option " ++ name ++ " needs a value"
  | .unexpectedValue name => "option " ++ name ++ " takes no value"
  | .noCommand => "a command is needed"
  | .unknownCommand name => "unknown command " ++ name
  | .missingOperand => "an operand is missing"
  | .unexpectedOperand text => "unexpected operand " ++ text

/-- The options of the command line. -/
inductive Switch where
  /-- The document. -/
  | input
  /-- The file with the engine's options. -/
  | config
  /-- Print JSON over several lines. -/
  | pretty
  /-- Make missing maps when writing. -/
  | autoVivify
  /-- Say more; may be repeated. -/
  | verbose
  /-- Print every occurrence. -/
  | all
  deriving DecidableEq, Repr

namespace Switch

/-- Whether an option has a value. -/
def takesValue : Switch → Bool
  | .input | .config => true
  | _ => false

/-- The long form of an option. -/
def longName : Switch → String
  | .input => "input"
  | .config => "config"
  | .pretty => "pretty"
  | .autoVivify => "auto-vivify"
  | .verbose => "verbose"
  | .all => "all"

/-- The short form of an option. -/
def shortName? : Switch → Option Char
  | .input => some 'i'
  | .config => some 'c'
  | .pretty => some 'p'
  | .autoVivify => none
  | .verbose => some 'v'
  | .all => some 'a'

/-- The options that may stand anywhere. -/
def common : List Switch := [.input, .config, .pretty, .autoVivify, .verbose]

end Switch

/-- An option as given, with its value if it has one. -/
abbrev Given := List (Switch × String)

namespace CommandLine

/-- One more option; only some may be repeated. -/
def give (given : Given) (switch : Switch) (value : String) : Except UsageError Given :=
  if switch ≠ .verbose && given.any fun entry => entry.1 == switch then
    .error (.repeatedOption switch.longName)
  else .ok ((switch, value) :: given)

/-- Whether an argument is an option, or the mark before the operands. -/
def looksLikeOption (argument : String) : Bool :=
  match argument.toList with
  | '-' :: _ :: _ => true
  | _ => false

/-- The value of an option that stands in the next argument. -/
def nextValue (name : String) : List String → Except UsageError (String × List String)
  | [] => .error (.missingValue name)
  | value :: rest =>
    if looksLikeOption value then .error (.missingValue name) else .ok (value, rest)

/-- Read a long option, behind its dashes. -/
def longOption (allowed : List Switch) (given : Given) (text : List Char) (rest : List String) :
    Except UsageError (Given × List String) := do
  let name := String.ofList (text.takeWhile (· ≠ '='))
  let value? := match text.dropWhile (· ≠ '=') with
    | [] => none
    | _ :: value => some (String.ofList value)
  match allowed.find? fun switch => switch.longName == name, value? with
  | none, _ => throw (.unknownOption name)
  | some switch, value? =>
    match switch.takesValue, value? with
    | true, some value => return (← give given switch value, rest)
    | true, none =>
      let (value, rest) ← nextValue name rest
      return (← give given switch value, rest)
    | false, none => return (← give given switch "", rest)
    | false, some _ => throw (.unexpectedValue name)

/-- Read short options that are run together, behind their dash. -/
def shortOptions (allowed : List Switch) (given : Given) (rest : List String) :
    List Char → Except UsageError (Given × List String)
  | [] => .ok (given, rest)
  | c :: text => do
    match allowed.find? fun switch => switch.shortName? == some c with
    | none => throw (.unknownOption c.toString)
    | some switch =>
      if switch.takesValue then
        match text with
        | [] =>
          let (value, rest) ← nextValue switch.longName rest
          return (← give given switch value, rest)
        | '=' :: value => return (← give given switch (String.ofList value), rest)
        | value => return (← give given switch (String.ofList value), rest)
      else
        let given ← give given switch ""
        shortOptions allowed given rest text

/-- Read an argument that looks like an option. -/
def option (allowed : List Switch) (given : Given) (argument : String) (rest : List String) :
    Except UsageError (Given × List String) :=
  match argument.toList with
  | '-' :: '-' :: text => longOption allowed given text rest
  | _ :: text => shortOptions allowed given rest text
  | [] => .ok (given, rest)

/-- Read options and operands.  Every argument is looked at once, so as many rounds as there are
arguments are enough.  Reading stops at the first operand if `single`. -/
def scan (allowed : List Switch) (single : Bool) :
    (rounds : Nat) → Given → List String → List String →
      Except UsageError (Given × List String × List String)
  | 0, given, operands, rest => .ok (given, operands.reverse, rest)
  | _ + 1, given, operands, [] => .ok (given, operands.reverse, [])
  | rounds + 1, given, operands, argument :: rest =>
    if argument = "--" then
      if single then
        match rest with
        | [] => .error .noCommand
        | operand :: _ => .error (.unexpectedOperand operand)
      else .ok (given, operands.reverse ++ rest, [])
    else if looksLikeOption argument then do
      let (given, rest) ← option allowed given argument rest
      scan allowed single rounds given operands rest
    else if single then .ok (given, [argument], rest)
    else scan allowed single rounds given (argument :: operands) rest

/-- The command with a name, given its operands and whether all occurrences are asked for. -/
def command (name : String) (operands : List String) (all : Bool) : Except UsageError Command :=
  match name, operands with
  | "get", path :: arguments => .ok (.get path arguments)
  | "set", path :: value :: arguments => .ok (.set path value arguments)
  | "find", [value] => .ok (.find value all)
  | "check", [path] => .ok (.check path)
  | "tokens", [path] => .ok (.tokens path)
  | "escape", [text] => .ok (.escape text)
  | "find", _ :: operand :: _ | "check", _ :: operand :: _ | "tokens", _ :: operand :: _
  | "escape", _ :: operand :: _ => .error (.unexpectedOperand operand)
  | _, _ => .error .missingOperand

/-- The names of all commands. -/
def commandNames : List String := ["get", "set", "find", "check", "tokens", "escape"]

end CommandLine

/-- What a command line asks for. -/
structure Invocation where
  /-- The command. -/
  command : Command
  /-- The document, if it is given as an option. -/
  input? : Option String
  /-- The file with the engine's options. -/
  config? : Option String
  /-- Whether JSON is printed over several lines. -/
  pretty : Bool
  /-- Whether missing maps are made when writing. -/
  autoVivify : Bool
  deriving DecidableEq, Repr, Inhabited

/-- **Read a command line.** -/
def CommandLine.parse (arguments : List String) : Except UsageError Invocation := do
  let (before, name, rest) ← scan Switch.common true arguments.length [] [] arguments
  match name with
  | [] => throw .noCommand
  | name :: _ =>
    if !commandNames.contains name then throw (.unknownCommand name)
    else
      let allowed := if name = "find" then .all :: Switch.common else Switch.common
      let (behind, operands, _) ← scan allowed false rest.length [] [] rest
      let given := behind ++ before
      let isGiven (switch : Switch) : Bool := given.any fun entry => entry.1 == switch
      let command ← command name operands (isGiven .all)
      return {
        command
        input? := given.lookup .input
        config? := given.lookup .config
        pretty := isGiven .pretty
        autoVivify := isGiven .autoVivify }

namespace Invocation
variable (invocation : Invocation)

/-- Whether the document has to be read from elsewhere. -/
def needsInput : Bool :=
  match invocation.command with
  | .get .. | .set .. | .find .. => invocation.input?.isNone
  | _ => false

/-- The request behind an invocation, given what was read for it. -/
def request (input? config? : Option String) : Request where
  command := invocation.command
  input? := invocation.input? <|> input?
  config?
  autoVivify := invocation.autoVivify

/-- **What an invocation prints**, given the document read for it and the text of its options. -/
def run (input? config? : Option String) : Except CommandError String := do
  match ← (invocation.request input? config?).execute with
  | .text text => return text ++ "\n"
  | .json json => return json.toText (if invocation.pretty then .pretty else .compact) ++ "\n"

end Invocation

end GraphPath
