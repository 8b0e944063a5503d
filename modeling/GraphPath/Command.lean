import GraphPath.Engine
import GraphPath.Json.Document
import GraphPath.Json.Options
import GraphPath.Token.Outline

/-!
# Commands

A `Command` does one thing with a JSON document or with a path: it prints the value at a
path, writes one and prints the document, prints where a value occurs, checks a path,
prints its tokens, or escapes a text.  Options come as JSON text too.

The engine is made first, then the document is read, then the other texts, so of several
faults the first in this order is reported.  Arguments are JSON where they can be read as
such, and plain text where not.
-/

namespace GraphPath

/-- What to do. -/
inductive Command where
  /-- Print the value at a path. -/
  | get (path : String) (arguments : List String)
  /-- Write a value at a path and print the document. -/
  | set (path value : String) (arguments : List String)
  /-- Print the paths at which a value occurs, or only the first. -/
  | find (value : String) (all : Bool)
  /-- Check the syntax of a path. -/
  | check (path : String)
  /-- Print the tokens of a path. -/
  | tokens (path : String)
  /-- Print a text as one literal key. -/
  | escape (text : String)
  deriving DecidableEq, Repr, Inhabited

/-- A command with what it works on. -/
structure Request where
  /-- What to do. -/
  command : Command
  /-- The document, as JSON text. -/
  input? : Option String := none
  /-- The options, as JSON text. -/
  config? : Option String := none
  /-- Whether writes make the maps that are missing on their way. -/
  autoVivify : Bool := false
  deriving Inhabited

/-- What a command prints. -/
inductive Response where
  /-- A JSON document. -/
  | json (json : Json)
  /-- A text. -/
  | text (text : String)

/-- Why a command fails. -/
inductive CommandError where
  /-- A path is malformed or cannot be resolved, or the options are rejected. -/
  | path (error : PathError)
  /-- A text is no JSON, or not the JSON that is needed. -/
  | json
  /-- There is no document. -/
  | noInput
  /-- The value searched for does not occur. -/
  | notFound
  /-- The value to print contains itself. -/
  | endless
  deriving DecidableEq, Repr

/-- The wording of a command error. -/
def CommandError.message : CommandError → String
  | .path error => error.message
  | .json => "Invalid JSON"
  | .noInput => "No input provided. Use --input or pipe JSON to stdin."
  | .notFound => "Value not found"
  | .endless => "Value contains itself"

/-- A command argument as a value: JSON if it can be read, a string if not. -/
def Graph.addArgument (g : Graph) (argument : String) : Value × Graph :=
  match Json.read? argument with
  | some json => g.addJson json
  | none => (.string argument, g)

/-- Command arguments as values. -/
def Graph.addArguments (g : Graph) : List String → List Value × Graph
  | [] => ([], g)
  | argument :: rest =>
    let (v, g) := g.addArgument argument
    let (others, g) := g.addArguments rest
    (v :: others, g)

namespace Request
variable (request : Request)

/-- The engine that a request asks for. -/
def engine : Except CommandError Engine := do
  let options ←
    match request.config? with
    | none => pure {}
    | some text =>
      match Options.read? text with
      | some options => pure options
      | none => throw .json
  let options := if request.autoVivify then { options with autoVivify? := some true } else options
  (Engine.ofOptions options).mapError .path

/-- The document of a request. -/
def document : Except CommandError Json :=
  match request.input? with
  | none => throw .noInput
  | some text =>
    match Json.read? text with
    | some json => pure json
    | none => throw .json

end Request

/-- A value in print. -/
def Graph.respond (g : Graph) (v : Value) : Except CommandError Response :=
  match g.toJson? v with
  | some json => pure (.json json)
  | none => throw .endless

/-- Resolve a path on a graph that has no host functions. -/
def Engine.resolveAlone (engine : Engine) (g : Graph) (root : Value) (path : String)
    (new? : Option Value) (arguments : List Value) : Except CommandError (Value × Graph) :=
  match (engine.resolve Host.none root (.text path) new? arguments).1 ⟨g, ()⟩ with
  | .ok v world => .ok (v, world.graph)
  | .error e _ => .error (.path e)

/-- **Carry out a request.** -/
def Request.execute (request : Request) : Except CommandError Response := do
  let engine ← request.engine
  match request.command with
  | .check path =>
    let _ ← (engine.tokenize path).1.mapError .path
    pure (.text "Path is valid")
  | .tokens path =>
    let tree ← (engine.tokenize path).1.mapError .path
    pure (.text tree.pretty)
  | .escape text => pure (.text (engine.escape text))
  | .get path arguments =>
    let document ← request.document
    let (root, g) := Graph.addJson {} document
    let (arguments, g) := g.addArguments arguments
    let (v, g) ← engine.resolveAlone g root path none arguments
    g.respond v
  | .set path value arguments =>
    let document ← request.document
    let (root, g) := Graph.addJson {} document
    let some json := Json.read? value | throw .json
    let (new, g) := g.addJson json
    let (arguments, g) := g.addArguments arguments
    let (_, g) ← engine.resolveAlone g root path (some new) arguments
    g.respond root
  | .find value all =>
    let document ← request.document
    let (root, g) := Graph.addJson {} document
    let some json := Json.read? value | throw .json
    let (target, g) := g.addJson json
    match engine.find? g root target (if all then .many else .one) with
    | some paths => pure (.json (.array (paths.map .string)))
    | none => throw .notFound

end GraphPath
