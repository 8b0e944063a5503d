import GraphPath.Grammar.Escape
import GraphPath.Graph.Equality
import GraphPath.Graph.Keys

/-!
# Finding values

`locate` answers at which key paths below a root a value occurs.  Containers occur by
handle, everything else by equality.  The search goes in pre-order, does not look
inside a value that matches, and never enters a container that is already on the way
from the root to it, so that it ends on every graph, whatever the limit on the length
of paths: each container entered is one fewer that is still free to enter.

A container reached on two different ways is searched on both.
-/

namespace GraphPath

/-- Whether a node is the value searched for: the same container, or an equal scalar. -/
def Value.isTarget (target node : Value) : Bool :=
  match node.handle?, target.handle? with
  | some h, some k => h == k
  | none, none => node.scalarBeq target
  | _, _ => false

namespace Graph
variable (g : Graph) (target : Value)

mutual

/-- The key paths to the target below `node`, of at most `depth` keys, through containers that
are `free` to enter. -/
def locateBelow (free : List Handle) (depth : Nat) (node : Value) : List (List String) :=
  match node.handle? with
  | none => []
  | some h =>
    if h ∈ free ∧ 0 < depth then locateAmong (free.erase h) (depth - 1) (g.children node) else []
termination_by (free.length, 0)
decreasing_by
  have := List.length_erase_of_mem (by assumption : h ∈ free ∧ 0 < depth).1
  have := List.length_pos_of_mem (by assumption : h ∈ free ∧ 0 < depth).1
  simp only [Prod.lex_def]
  omega

/-- The key paths to the target at or below the entries of a container. -/
def locateAmong (free : List Handle) (depth : Nat) (entries : List (String × Value)) :
    List (List String) :=
  match entries with
  | [] => []
  | (key, node) :: rest =>
    let here :=
      if target.isTarget node then [[key]]
      else (locateBelow free depth node).map (key :: ·)
    here ++ locateAmong free depth rest
termination_by (free.length, entries.length + 1)

end

mutual

/-- The first of the key paths that `locateBelow` finds, without looking for the others. -/
def locateFirstBelow (free : List Handle) (depth : Nat) (node : Value) : Option (List String) :=
  match node.handle? with
  | none => none
  | some h =>
    if h ∈ free ∧ 0 < depth then
      locateFirstAmong (free.erase h) (depth - 1) (g.children node)
    else none
termination_by (free.length, 0)
decreasing_by
  have := List.length_erase_of_mem (by assumption : h ∈ free ∧ 0 < depth).1
  have := List.length_pos_of_mem (by assumption : h ∈ free ∧ 0 < depth).1
  simp only [Prod.lex_def]
  omega

/-- The first of the key paths that `locateAmong` finds, without looking for the others. -/
def locateFirstAmong (free : List Handle) (depth : Nat) (entries : List (String × Value)) :
    Option (List String) :=
  match entries with
  | [] => none
  | (key, node) :: rest =>
    if target.isTarget node then some [key]
    else
      match locateFirstBelow free depth node with
      | some keys => some (key :: keys)
      | none => locateFirstAmong free depth rest
termination_by (free.length, entries.length + 1)

end

/-- All containers of a graph. -/
def handles : List Handle := List.range g.cells.size

/-- All key paths of at most `depth` keys from `root` to the target. -/
def locateAll (depth : Nat) (root : Value) : List (List String) :=
  g.locateBelow target g.handles depth root

/-- The first key path of at most `depth` keys from `root` to the target. -/
def locateFirst (depth : Nat) (root : Value) : Option (List String) :=
  g.locateFirstBelow target g.handles depth root

end Graph

/-- How many occurrences are asked for. -/
inductive FindMode where
  /-- The first one. -/
  | one
  /-- All of them. -/
  | many
  deriving DecidableEq, Repr

/-- A row of keys as a flat path: each key escaped, property separators between them. -/
def Grammar.pathOfKeys (grammar : Grammar) (keys : List String) : String :=
  grammar.propertySeparator.toString.intercalate (keys.map grammar.escape)

/-- **The paths at which a value occurs** below a root; nothing if there are none. -/
def Graph.find? (g : Graph) (grammar : Grammar) (maxDepth : Nat) (root target : Value)
    (mode : FindMode) : Option (List String) :=
  let found :=
    match mode with
    | .one => (g.locateFirst target maxDepth root).toList
    | .many => g.locateAll target maxDepth root
  if found.isEmpty then none else some (found.map grammar.pathOfKeys)

end GraphPath
