import GraphPath.Graph.Keys

/-!
# Changing a graph, and calling the host

Resolving a path reads and changes a document step by step, and may fail at any step
with the changes made so far left behind.  Two layers of such computations are used.

An `Edit` works on the graph alone and fails for a reason of its own.  A `Resolve`
works on a `World`, the graph together with whatever state the host keeps, and fails
with a `PathError`; it is what calls are made in.  The **host** is a parameter: it says
what happens when one of its functions is called, and may do anything to the world.
-/

namespace GraphPath

/-- A computation on a graph that may fail; either way it leaves a graph. -/
abbrev Edit (α : Type) := EStateM Failure Graph α

namespace Edit

/-- Look at the graph. -/
def ask {α : Type} (f : Graph → α) : Edit α := fun g => .ok (f g) g

/-- Look at the graph for something that may be missing for a reason. -/
def askFor {α : Type} (f : Graph → Except Failure α) : Edit α := fun g =>
  match f g with
  | .ok a => .ok a g
  | .error failure => .error failure g

/-- Change the graph, with an answer. -/
def make {α : Type} (f : Graph → α × Graph) : Edit α := fun g => .ok (f g).1 (f g).2

/-- Change the graph, with an answer, if nothing is in the way. -/
def attempt {α : Type} (f : Graph → Except Failure (α × Graph)) : Edit α := fun g =>
  match f g with
  | .ok (a, g) => .ok a g
  | .error failure => .error failure g

/-- Give a value to a key of `target`. -/
def assign (target : Value) (key : String) (v : Value) : Edit Unit :=
  attempt fun g => (g.setKey target key v).map fun g => ((), g)

/-- Fail. -/
def fail {α : Type} (failure : Failure) : Edit α := fun g => .error failure g

end Edit

/-- A document together with the state of its host. -/
structure World (ε : Type) where
  /-- The document. -/
  graph : Graph
  /-- The state of the host. -/
  host : ε

/-- A computation on a world that may fail; either way it leaves a world. -/
abbrev Resolve (ε α : Type) := EStateM PathError (World ε) α

/-- What happens when a host function is called with a receiver and arguments. -/
abbrev Host (ε : Type) := Callable → Value → List Value → Resolve ε Value

/-- An edit of the graph, as a computation on the world around it. -/
def Edit.run {ε α : Type} (edit : Edit α) : Resolve ε α := fun world =>
  match edit world.graph with
  | .ok a graph => .ok a { world with graph }
  | .error failure graph => .error (.unresolved failure) { world with graph }

/-- A host without functions: every call of one fails. -/
def Host.none {ε : Type} : Host ε := fun f _ _ => throw (.uncallable (.host f.name))

end GraphPath
