import GraphPath.Json.Number
import GraphPath.Json.Source

/-!
# JSON documents

A `Json` value is what a JSON text stands for.  The members of an object are kept in the
order of their keys, each key once; of repeated keys the last one counts.  A text that
nests too deep, or holds a number or a string that stands for nothing, is no document.
-/

namespace GraphPath

/-- A JSON document. -/
inductive Json where
  | null
  | bool (b : Bool)
  | integer (n : Int64)
  | float (x : Float)
  | string (s : String)
  | array (items : List Json)
  /-- Members in the order of their keys. -/
  | object (members : List (String × Json))
  deriving Inhabited, Repr

namespace Json

/-- Give a value to a key among members in the order of their keys. -/
def putMember {α : Type} (key : String) (v : α) : List (String × α) → List (String × α)
  | [] => [(key, v)]
  | (k, w) :: rest =>
    match compare key k with
    | .lt => (key, v) :: (k, w) :: rest
    | .eq => (key, v) :: rest
    | .gt => (k, w) :: putMember key v rest

/-- Members in the order of their keys; of repeated keys the last one counts. -/
def sortMembers {α : Type} (members : List (String × α)) : List (String × α) :=
  members.foldl (fun sorted member => putMember member.1 member.2 sorted) []

/-- A number as a document.  Integers beyond 64 signed bits are floats. -/
def ofNumber : NumberValue → Json
  | .integer n =>
    if n < twoTo 63 then .integer (Int64.ofInt n) else .float n.toNat.toUInt64.toFloat
  | .float x => .float x

/-- How deep arrays and objects may nest. -/
def maxNesting : Nat := 127

mutual

/-- The document a text stands for, inside so many containers. -/
def ofSource? (nesting : Nat) : JsonSource → Option Json
  | .null => some .null
  | .bool b => some (.bool b)
  | .number text => text.value?.map ofNumber
  | .string parts => (JsonSource.text? parts).map .string
  | .array items =>
    if nesting < maxNesting then (ofItems? (nesting + 1) items).map .array else none
  | .object members =>
    if nesting < maxNesting then
      (ofMembers? (nesting + 1) members).map fun members => .object (sortMembers members)
    else none

/-- The documents that the items of an array stand for. -/
def ofItems? (nesting : Nat) : List JsonSource → Option (List Json)
  | [] => some []
  | item :: rest =>
    match ofSource? nesting item, ofItems? nesting rest with
    | some item, some rest => some (item :: rest)
    | _, _ => none

/-- The members that the members of an object stand for, as they are written. -/
def ofMembers? (nesting : Nat) : List (List StringPart × JsonSource) → Option (List (String × Json))
  | [] => some []
  | (key, v) :: rest =>
    match JsonSource.text? key, ofSource? nesting v, ofMembers? nesting rest with
    | some key, some v, some rest => some ((key, v) :: rest)
    | _, _, _ => none

end

/-- **Read a document** from its text. -/
def read? (text : String) : Option Json := (JsonSource.read? text).bind (ofSource? 0)

end Json

end GraphPath
