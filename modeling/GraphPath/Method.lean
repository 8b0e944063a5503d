import GraphPath.Graph.Keys
import GraphPath.Text.Case

/-!
# Methods

When a value lacks a key, some keys still mean something on it: `length` is the number
of its items, entries or characters, and the names of its methods give callables
(`Graph.intrinsic?`).  A method runs on the value it is called on
(`Graph.callMethod`); `sort` and `reverse` rearrange a list in place.

Values sort by `Graph.compare`: numbers by size, texts by code points, `false` before
`true`; values that cannot be compared count as equal and keep their order.
-/

namespace GraphPath

namespace Method

/-- All methods. -/
def all : List Method :=
  [.sort, .reverse, .keys, .values, .first, .last, .join, .upper, .lower, .trim]

/-- The method with a name. -/
def ofName? (name : String) : Option Method := all.find? fun method => method.name == name

/-- Whether a kind of value has a method. -/
def appliesTo (method : Method) (kind : Kind) : Bool :=
  match kind with
  | .list => [sort, reverse, keys, values, first, last, join].contains method
  | .map => [keys, values].contains method
  | .string => [upper, lower, trim, reverse].contains method
  | _ => false

/-- The receivers a method is for, in words. -/
def needs : Method → String
  | .sort | .first | .last | .join => "list"
  | .reverse => "list or string"
  | .keys | .values => "map or list"
  | .upper | .lower | .trim => "string"

end Method

/-- The order of two floats; NaN has no order. -/
def compareFloats (x y : Float) : Option Ordering :=
  if x < y then some .lt else if x == y then some .eq else if y < x then some .gt else none

/-- An integer as a float: the nearest one, and of two that are equally near the even one. -/
def nearestFloat (n : Int64) : Float := .ofModel (.ofInt64 n)

/-- The order of two values in a sorted list. -/
def Value.compare : Value → Value → Ordering
  | .integer a, .integer b => Ord.compare a b
  | .float a, .float b => (compareFloats a b).getD .eq
  | .integer a, .float b => (compareFloats (nearestFloat a) b).getD .eq
  | .float a, .integer b => (compareFloats a (nearestFloat b)).getD .eq
  | .string a, .string b => Ord.compare a b
  | .boolean a, .boolean b => Ord.compare a b
  | _, _ => .eq

/-- A list in order; values that count as equal keep their order. -/
def sortValues (items : List Value) : List Value :=
  items.mergeSort fun a b => a.compare b != .gt

namespace Graph
variable (g : Graph)

/-- The number of items, entries or characters of a value. -/
def length? : Value → Option Nat
  | .container h => some (g.read h).size
  | .string s => some s.length
  | _ => none

/-- What a key means on a value that has no such key of its own. -/
def intrinsic? (target : Value) (name : String) : Option (Value × Graph) :=
  if name == "length" then
    (g.length? target).map fun n => (.integer (Int64.ofNat n), g)
  else
    match Method.ofName? name with
    | some method =>
      if method.appliesTo (g.kind target) then some (g.newCallable (.method method)) else none
    | none => none

/-- The keys that all the given values stand for. -/
def toKeys (values : List Value) : Except Failure (List String) := values.mapM g.toKey

/-- The text of the items of a list, with a separator between them. -/
def join (items args : List Value) : Except Failure String := do
  let separator ← match args with
    | [] => pure ","
    | v :: _ => g.toKey v
  let parts ← g.toKeys items
  pure (separator.intercalate parts)

/-- **Run a method** on a receiver.  A method called on anything it is not for says so. -/
def callMethod (method : Method) (receiver : Value) (args : List Value) :
    Except Failure (Value × Graph) :=
  let wrong := Except.error (.wrongReceiver method.name method.needs (g.kind receiver))
  match receiver with
  | .container h =>
    match method, g.read h with
    | .sort, .list items => .ok (receiver, g.write h (.list (sortValues items)))
    | .reverse, .list items => .ok (receiver, g.write h (.list items.reverse))
    | .keys, cell => .ok (g.newList (cell.keys.map .string))
    | .values, cell => .ok (g.newList cell.values)
    | .first, .list items => .ok (items.head?.getD .null, g)
    | .last, .list items => .ok (items.getLast?.getD .null, g)
    | .join, .list items => (g.join items args).map fun text => (.string text, g)
    | _, _ => wrong
  | .string s =>
    match method with
    | .reverse => .ok (.string (String.ofList s.toList.reverse), g)
    | .upper => .ok (.string (Text.upper s), g)
    | .lower => .ok (.string (Text.lower s), g)
    | .trim => .ok (.string (Text.trim s), g)
    | _ => wrong
  | _ => wrong

end Graph

end GraphPath
