import GraphPath.Engine

/-!
# The shared engine

Besides the engines that callers make, there is one **shared engine**, which host
functions can use while they are being called: a function may read or write through it,
look something up in it, or try to configure it.  While the shared engine is resolving a
path it is busy, and cannot be configured.

What a caller does with the shared engine, and what a host function does once it is
called, is a `Program`.  It works on the graph by itself and may have engines of its own;
what it wants from an engine it asks for, to go on with the answer.  Who answers are the
`Services` of a host that keeps some state, here of one that keeps the shared engine
(`Shared.services`).

Programs are trees without loops, so running one ends.  What need not end is the chain of
functions that have paths resolved which call functions; `Shared.host` therefore takes the
number of functions that may be running one inside the other, and to call one more fails.
-/

namespace GraphPath

/-- What is done by a caller of the shared engine, or by a host function. -/
inductive Program where
  /-- It is done, and leaves a graph. -/
  | done (graph : Graph) (result : Except PathError Value)
  /-- It reads through the shared engine. -/
  | get (graph : Graph) (root : Value) (path : Path) (arguments : List Value)
      (next : Option Value → Graph → Program)
  /-- It writes through the shared engine. -/
  | set (graph : Graph) (root : Value) (path : Path) (new : Value) (arguments : List Value)
      (next : Bool → Graph → Program)
  /-- It has a path text read by the shared engine. -/
  | tokenize (graph : Graph) (path : String) (next : Option TokenTree → Program)
  /-- It looks something up that depends on the grammar and the settings of the shared engine, how
  a text is escaped or where a value is found. -/
  | consult (graph : Graph) (next : Grammar → Settings → Program)
  /-- It configures the shared engine. -/
  | configure (graph : Graph) (options : Options) (next : Except PathError Unit → Program)
  /-- It reads or writes through an engine of its own. -/
  | elsewhere (graph : Graph) (engine : Engine) (root : Value) (path : Path)
      (new? : Option Value) (arguments : List Value)
      (next : Except PathError Value → Engine → Graph → Program)

/-- The host's functions: what a callable does with a receiver, arguments and a graph. -/
abbrev Functions := Callable → Value → List Value → Graph → Program

/-- **What a program can ask for**, of a host whose state is of type `ε`. -/
structure Services (ε : Type) where
  /-- Resolve a path with the shared engine. -/
  resolve (root : Value) (path : Path) (new? : Option Value) (arguments : List Value) :
    Resolve ε Value
  /-- Have a path text read by the shared engine. -/
  tokenize (path : String) (host : ε) : Except PathError TokenTree × ε
  /-- The grammar and the settings of the shared engine. -/
  consult (host : ε) : Grammar × Settings
  /-- Configure the shared engine. -/
  configure (options : Options) (host : ε) : Except PathError ε
  /-- What is called while another engine resolves a path. -/
  functions : Host ε

/-- Run a computation on a graph, for what it comes to and the graph that it leaves. -/
def outcome {ε α : Type} (graph : Graph) (computation : Resolve ε α) :
    Resolve ε (Except PathError α × Graph) := fun world =>
  match computation { world with graph } with
  | .ok a world => .ok (.ok a, world.graph) world
  | .error e world => .ok (.error e, world.graph) world

/-- **Carry out a program** with the given services. -/
def Program.perform {ε : Type} (services : Services ε) : Program → Resolve ε Value
  | .done graph result => fun world =>
    match result with
    | .ok v => .ok v { world with graph }
    | .error e => .error e { world with graph }
  | .get graph root path arguments next => do
    let (result, graph) ← outcome graph (services.resolve root path none arguments)
    perform services (next result.toOption graph)
  | .set graph root path new arguments next => do
    let (result, graph) ← outcome graph (services.resolve root path (some new) arguments)
    perform services (next result.isOk graph)
  | .tokenize graph path next => fun world =>
    let (tree?, host) := services.tokenize path world.host
    perform services (next tree?.toOption) { graph, host }
  | .consult graph next => fun world =>
    let (grammar, settings) := services.consult world.host
    perform services (next grammar settings) { world with graph }
  | .configure graph options next => fun world =>
    match services.configure options world.host with
    | .ok host => perform services (next (.ok ())) { graph, host }
    | .error e => perform services (next (.error e)) { world with graph }
  | .elsewhere graph engine root path new? arguments next => do
    let (computation, engine) := engine.resolve services.functions root path new? arguments
    let (result, graph) ← outcome graph computation
    perform services (next result engine graph)

/-- The shared engine, and how many of its resolutions are under way. -/
structure Shared where
  /-- The engine. -/
  engine : Engine := {}
  /-- The number of resolutions under way. -/
  running : Nat := 0
  deriving Inhabited

namespace Shared

/-- Whether the engine is resolving a path. -/
def busy (shared : Shared) : Bool := 0 < shared.running

/-- **Configure the shared engine**, unless it is busy. -/
def configure (shared : Shared) (options : Options) : Except PathError Shared :=
  if shared.busy then .error (.config .busy)
  else (shared.engine.configure options).map fun engine => { shared with engine }

/-- Have a path text read by the shared engine. -/
def tokenize (shared : Shared) (path : String) : Except PathError TokenTree × Shared :=
  let (tree?, engine) := shared.engine.tokenize path
  (tree?, { shared with engine })

/-- Run a computation with one more resolution under way. -/
def whileBusy {α : Type} (resolve : Resolve Shared α) : Resolve Shared α := fun world =>
  let before := world.host.running
  let settle (world : World Shared) : World Shared :=
    { world with host.running := before }
  match resolve { world with host.running := before + 1 } with
  | .ok a world => .ok a (settle world)
  | .error e world => .error e (settle world)

/-- **Resolve a path with the shared engine.** -/
def resolve (host : Host Shared) (root : Value) (path : Path) (new? : Option Value)
    (arguments : List Value) : Resolve Shared Value := fun world =>
  let (computation, engine) := world.host.engine.resolve host root path new? arguments
  whileBusy computation { world with host.engine := engine }

/-- What can be asked of a host that keeps the shared engine. -/
def services (host : Host Shared) : Services Shared where
  resolve := resolve host
  tokenize path shared := shared.tokenize path
  consult shared := (shared.engine.grammar, shared.engine.settings)
  configure options shared := shared.configure options
  functions := host

/-- The host with the given functions, of which `depth` may be running one inside the other. -/
def host (functions : Functions) : Nat → Host Shared
  | 0 => Host.none
  | depth + 1 => fun f receiver arguments world =>
    (functions f receiver arguments world.graph).perform (services (host functions depth)) world

end Shared

end GraphPath
