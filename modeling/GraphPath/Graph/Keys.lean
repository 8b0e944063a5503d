import GraphPath.Decimal.Digits
import GraphPath.Decimal.Layout
import GraphPath.Graph.Basic

/-!
# The keys of a container

Lists and maps are used alike, by text keys: the items of a list have their positions
in decimal as keys.  A `Cell` can tell its keys (`keys`), what it has under one
(`get?`), and be given a value under one (`set`); a list takes a value at a position it
has, or at the one just behind its last.  On a `Graph` the same three are asked of any
value, and only containers have keys.

`Graph.toKey` is the way back from values to keys.
-/

namespace GraphPath

namespace Cell

/-- The number of entries. -/
def size : Cell → Nat
  | .list items => items.length
  | .map fields => fields.size

/-- The keys, in order. -/
def keys : Cell → List String
  | .list items => (List.range items.length).map Nat.repr
  | .map fields => fields.keys

/-- The values, in the order of their keys. -/
def values : Cell → List Value
  | .list items => items
  | .map fields => fields.values

/-- The entries, in order. -/
def entries (cell : Cell) : List (String × Value) := cell.keys.zip cell.values

/-- The value under a key. -/
def get? : Cell → String → Option Value
  | .list items, key =>
    match listIndex? key with
    | some i => items[i]?
    | none => none
  | .map fields, key => fields.get? key

/-- Whether there is a value under a key. -/
def has : Cell → String → Bool
  | .list items, key =>
    match listIndex? key with
    | some i => i < items.length
    | none => false
  | .map fields, key => fields.contains key

/-- Give a value to a key. -/
def set : Cell → String → Value → Except Failure Cell
  | .list items, key, v =>
    match listIndex? key with
    | none => .error (.notAListIndex key)
    | some i =>
      if i < items.length then .ok (.list (items.set i v))
      else if i = items.length then .ok (.list (items ++ [v]))
      else .error (.indexOutOfRange i items.length)
  | .map fields, key, v => .ok (.map (fields.insert key v))

/-- **A key has a value exactly if looking it up finds one.** -/
theorem has_eq_isSome_get? (cell : Cell) (key : String) : cell.has key = (cell.get? key).isSome := by
  cases cell with
  | list items =>
    cases h : listIndex? key with
    | none => simp [has, get?, h]
    | some i =>
      rw [Bool.eq_iff_iff]
      simp [has, get?, h]
  | map fields => rfl

end Cell

namespace Graph
variable (g : Graph)

/-- The keys of a value, in order. -/
def ownKeys : Value → List String
  | .container h => (g.read h).keys
  | _ => []

/-- The values directly inside a value, with their keys. -/
def children : Value → List (String × Value)
  | .container h => (g.read h).entries
  | _ => []

/-- The value under a key of a value. -/
def getKey? : Value → String → Option Value
  | .container h, key => (g.read h).get? key
  | _, _ => none

/-- Whether a value has a key. -/
def hasKey : Value → String → Bool
  | .container h, key => (g.read h).has key
  | _, _ => false

/-- **The graph after giving a value to a key** of `target`. -/
def setKey (target : Value) (key : String) (v : Value) : Except Failure Graph :=
  match target with
  | .container h =>
    match (g.read h).set key v with
    | .ok cell => .ok (g.write h cell)
    | .error failure => .error failure
  | other => .error (.notAssignable key (g.kind other))

/-- The items of a list; nothing for any other value. -/
def items? : Value → Option (List Value)
  | .container h =>
    match g.read h with
    | .list items => some items
    | .map _ => none
  | _ => none

/-- A scalar as a key. -/
def toKey : Value → Except Failure String
  | .string s => .ok s
  | .integer n => .ok n.toInt.repr
  | .float x => .ok (floatKeyText x)
  | .boolean true => .ok "true"
  | .boolean false => .ok "false"
  | .null => .ok "null"
  | other => .error (.notAKey (g.kind other))

end Graph

end GraphPath
