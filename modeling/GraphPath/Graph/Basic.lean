import GraphPath.Error
import GraphPath.OrderedMap

/-!
# Documents as graphs

A document is a `Graph`: containers — lists and maps — held in numbered cells, and
values that are scalars, callables, or **handles** of containers.  Two values with
the same handle share one container, so that a write through one is seen through
the other, and a container may contain itself at any depth.

A graph grows by `alloc`, which answers with a handle never used before, and
changes by `write`, which touches one cell.  Everything else about what a step of a
path does or does not change follows from the laws of `read`, `write` and `alloc`
below.

Callables are compared by identity: each one made by `newCallable` carries a number
of its own.  What a callable does is data, one of the built-in methods or the name
of a host function, so that values hold no code.
-/

namespace GraphPath

/-- The number of a container's cell. -/
abbrev Handle := Nat

/-- The methods that lists, maps and strings have by themselves. -/
inductive Method where
  | sort
  | reverse
  | keys
  | values
  | first
  | last
  | join
  | upper
  | lower
  | trim
  deriving DecidableEq, Repr

/-- The name of a method. -/
def Method.name : Method → String
  | .sort => "sort"
  | .reverse => "reverse"
  | .keys => "keys"
  | .values => "values"
  | .first => "first"
  | .last => "last"
  | .join => "join"
  | .upper => "upper"
  | .lower => "lower"
  | .trim => "trim"

/-- What a callable does when it is called. -/
inductive Behaviour where
  /-- It runs a method on its receiver. -/
  | method (method : Method)
  /-- It runs the host's function of this name. -/
  | host (name : String)
  deriving DecidableEq, Repr

/-- A callable value. -/
structure Callable where
  /-- What it does. -/
  behaviour : Behaviour
  /-- Its identity. -/
  id : Nat
  deriving DecidableEq, Repr

/-- The name a callable shows. -/
def Callable.name (f : Callable) : String :=
  match f.behaviour with
  | .method method => method.name
  | .host name => name

/-- A callable in print. -/
def Callable.text (f : Callable) : String := "<fn " ++ f.name ++ ">"

/-- A node of a document. -/
inductive Value where
  | null
  | boolean (b : Bool)
  | integer (n : Int64)
  | float (x : Float)
  | string (s : String)
  /-- A list or a map, by its handle. -/
  | container (handle : Handle)
  | callable (f : Callable)
  deriving Inhabited, Repr

/-- What a container holds. -/
inductive Cell where
  /-- Items, with their positions as keys. -/
  | list (items : List Value)
  /-- Values under keys, in order of insertion. -/
  | map (fields : OrderedMap String Value)

instance : Inhabited Cell := ⟨.list []⟩

/-- A document: its containers, and how many callables have been made. -/
structure Graph where
  /-- The containers, by handle. -/
  cells : Array Cell := #[]
  /-- The number of callables made so far. -/
  callables : Nat := 0
  deriving Inhabited

namespace Graph

/-- What a container holds.  A handle of no container reads as an empty list. -/
def read (g : Graph) (h : Handle) : Cell := g.cells.getD h (.list [])

/-- Change what a container holds. -/
def write (g : Graph) (h : Handle) (cell : Cell) : Graph :=
  { g with cells := g.cells.setIfInBounds h cell }

/-- A new container. -/
def alloc (g : Graph) (cell : Cell) : Handle × Graph :=
  (g.cells.size, { g with cells := g.cells.push cell })

/-- A new list with the given items. -/
def newList (g : Graph) (items : List Value) : Value × Graph :=
  let (h, g) := g.alloc (.list items)
  (.container h, g)

/-- A new map with the given fields. -/
def newMap (g : Graph) (fields : OrderedMap String Value) : Value × Graph :=
  let (h, g) := g.alloc (.map fields)
  (.container h, g)

/-- A new callable. -/
def newCallable (g : Graph) (behaviour : Behaviour) : Value × Graph :=
  (.callable ⟨behaviour, g.callables⟩, { g with callables := g.callables + 1 })

/-- What a value is. -/
def kind (g : Graph) : Value → Kind
  | .null => .null
  | .boolean _ => .boolean
  | .integer _ => .integer
  | .float _ => .float
  | .string _ => .string
  | .callable _ => .callable
  | .container h =>
    match g.read h with
    | .list _ => .list
    | .map _ => .map

end Graph

/-- Whether a value is a list or a map. -/
def Value.isContainer : Value → Bool
  | .container _ => true
  | _ => false

/-- Whether a value can be called. -/
def Value.isCallable : Value → Bool
  | .callable _ => true
  | _ => false

/-- The handle of a container. -/
def Value.handle? : Value → Option Handle
  | .container h => some h
  | _ => none

/-! ## The laws of reading, writing and allocating -/

namespace Graph
variable (g : Graph)

@[simp] theorem size_write (h : Handle) (cell : Cell) :
    (g.write h cell).cells.size = g.cells.size := by simp [write]

/-- A cell holds what was last written to it. -/
theorem read_write_self {h : Handle} (hh : h < g.cells.size) (cell : Cell) :
    (g.write h cell).read h = cell := by simp [read, write, hh]

/-- **A write changes one cell only.** -/
theorem read_write_of_ne {h k : Handle} (hk : k ≠ h) (cell : Cell) :
    (g.write h cell).read k = g.read k := by
  simp [read, write, Ne.symm hk]

/-- A new container has a handle not used before. -/
@[simp] theorem alloc_fst (cell : Cell) : (g.alloc cell).1 = g.cells.size := rfl

/-- A new container holds what it was made with. -/
theorem read_alloc_self (cell : Cell) : (g.alloc cell).2.read g.cells.size = cell := by
  simp [read, alloc]

/-- **Allocating changes no container that was there before.** -/
theorem read_alloc_of_lt {h : Handle} (hh : h < g.cells.size) (cell : Cell) :
    (g.alloc cell).2.read h = g.read h := by
  simp [read, alloc, Array.getElem?_push, Nat.ne_of_lt hh]

end Graph

end GraphPath
