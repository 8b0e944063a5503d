import GraphPath.Graph.Keys
import GraphPath.Json.Basic

/-!
# JSON documents as graphs

A JSON document becomes a graph of fresh containers, none of them shared
(`Graph.addJson`).  A value of a graph becomes a JSON document (`Graph.toJson?`) unless it
contains itself, for then there is no end to it; sharing is not shown.  Callables, and
floats that are not finite, have no form in JSON and become `null`.

On a graph without loops no way from a value downwards enters more containers than there
are, so that bound decides whether there is an end.
-/

namespace GraphPath

namespace Graph

mutual

/-- A JSON document as a value, in new containers. -/
def addJson (g : Graph) : Json → Value × Graph
  | .null => (.null, g)
  | .bool b => (.boolean b, g)
  | .integer n => (.integer n, g)
  | .float x => (.float x, g)
  | .string s => (.string s, g)
  | .array items =>
    let (items, g) := addItems g items
    g.newList items
  | .object members =>
    let (fields, g) := addMembers g members
    g.newMap (.ofList fields)

/-- The items of an array as values. -/
def addItems (g : Graph) : List Json → List Value × Graph
  | [] => ([], g)
  | item :: rest =>
    let (item, g) := addJson g item
    let (rest, g) := addItems g rest
    (item :: rest, g)

/-- The members of an object as fields. -/
def addMembers (g : Graph) : List (String × Json) → List (String × Value) × Graph
  | [] => ([], g)
  | (key, v) :: rest =>
    let (v, g) := addJson g v
    let (rest, g) := addMembers g rest
    ((key, v) :: rest, g)

end

/-- A value as a JSON document, entering at most so many containers one inside the other. -/
def toJsonWithin? (g : Graph) : Nat → Value → Option Json
  | _, .null => some .null
  | _, .boolean b => some (.bool b)
  | _, .integer n => some (.integer n)
  | _, .float x => some (if x.isFinite then .float x else .null)
  | _, .string s => some (.string s)
  | _, .callable _ => some .null
  | 0, .container _ => none
  | depth + 1, .container h =>
    match g.read h with
    | .list items => (items.mapM (g.toJsonWithin? depth)).map .array
    | .map fields =>
      (fields.entries.mapM fun field => (g.toJsonWithin? depth field.2).map (field.1, ·)).map
        fun members => .object (Json.sortMembers members)

/-- **A value as a JSON document**; nothing if it contains itself. -/
def toJson? (g : Graph) (v : Value) : Option Json := g.toJsonWithin? g.cells.size v

end Graph

end GraphPath
