import GraphPath.Graph.Basic

/-!
# Equality of values

Two values are equal if they look alike: scalars by their value, callables by identity,
lists item by item, and maps by key, in whatever order their keys stand.  Which containers
they are does not matter.  An integer never equals a float, and floats compare as numbers,
so that a NaN, and whatever contains one, is not equal even to itself.

Looking at two values side by side comes to an end on every graph without loops, and no
way down enters more containers than there are (`Graph.equal`).
-/

namespace GraphPath

/-- Equality of values that are no containers. -/
def Value.scalarBeq : Value → Value → Bool
  | .null, .null => true
  | .boolean a, .boolean b => a == b
  | .integer a, .integer b => a == b
  | .float a, .float b => a == b
  | .string a, .string b => a == b
  | .callable a, .callable b => a.id == b.id
  | _, _ => false

/-- Equality of two containers' contents, given what counts as equal inside them. -/
def Cell.beq (same : Value → Value → Bool) : Cell → Cell → Bool
  | .list xs, .list ys => xs.length == ys.length && (xs.zip ys).all fun pair => same pair.1 pair.2
  | .map xs, .map ys =>
    xs.size == ys.size && xs.entries.all fun field =>
      match ys.get? field.1 with
      | some v => same field.2 v
      | none => false
  | _, _ => false

namespace Graph
variable (g : Graph)

/-- Equality of two values, entering at most so many containers one inside the other. -/
def equalWithin : Nat → Value → Value → Bool
  | 0, .container _, .container _ => false
  | depth + 1, .container h, .container k => (g.read h).beq (equalWithin depth) (g.read k)
  | _, .container _, _ => false
  | _, _, .container _ => false
  | _, a, b => a.scalarBeq b

/-- **Equality of two values** of a graph. -/
def equal (a b : Value) : Bool := g.equalWithin g.cells.size a b

/-- On values that are no containers, depth does not matter. -/
theorem equalWithin_of_handle?_eq_none (depth : Nat) {a b : Value} (ha : a.handle? = none)
    (hb : b.handle? = none) : g.equalWithin depth a b = a.scalarBeq b := by
  cases a <;> cases b <;> simp_all [Value.handle?, equalWithin]

/-- A container equals nothing but containers. -/
theorem equalWithin_container_left (depth : Nat) (h : Handle) {b : Value} (hb : b.handle? = none) :
    g.equalWithin depth (.container h) b = false := by
  cases b <;> cases depth <;> simp_all [Value.handle?, equalWithin]

end Graph

example : ({} : Graph).equal (.integer 1) (.integer 1) ∧
    !({} : Graph).equal (.integer 0) .null := by decide

end GraphPath
