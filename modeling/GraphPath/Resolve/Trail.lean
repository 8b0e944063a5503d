import GraphPath.Graph.Basic
import GraphPath.Token.Basic

/-!
# Trails

While a path is resolved, the values it has passed form its `Trail`: the root, and
behind it the result of every step so far.  The last of them is the value the next
step starts from.  Parent modifiers count back along the trail, a root modifier cuts it
down to the root, and a call takes its receiver from one value back.
-/

namespace GraphPath

/-- The values a resolution has passed. -/
structure Trail where
  /-- The value the resolution began at. -/
  root : Value
  /-- The results of the steps since, newest first. -/
  steps : List Value := []
  deriving Inhabited

namespace Trail

/-- All values on the trail, newest first. -/
def values (trail : Trail) : List Value := trail.steps ++ [trail.root]

/-- The value reached last. -/
def current (trail : Trail) : Value := trail.steps.headD trail.root

/-- The value `n` places before the one reached last. -/
def back? (trail : Trail) (n : Nat) : Option Value := trail.values[n]?

/-- The trail with one more result. -/
def push (trail : Trail) (v : Value) : Trail := { trail with steps := v :: trail.steps }

/-- The trail cut down to its root. -/
def restart (trail : Trail) : Trail := { trail with steps := [] }

/-- The receiver of a call: the value one place before the callable. -/
def receiver (trail : Trail) : Value := (trail.back? 1).getD .null

@[simp] theorem current_push (trail : Trail) (v : Value) : (trail.push v).current = v := rfl

@[simp] theorem root_push (trail : Trail) (v : Value) : (trail.push v).root = trail.root := rfl

@[simp] theorem root_restart (trail : Trail) : trail.restart.root = trail.root := rfl

/-- The value reached last is the first one on the trail. -/
theorem back?_zero (trail : Trail) : trail.back? 0 = some trail.current := by
  unfold back? values current
  cases trail.steps <;> rfl

/-- **One can go back to the root and no further.** -/
theorem back?_eq_none_iff (trail : Trail) (n : Nat) :
    trail.back? n = none ↔ trail.steps.length < n := by
  simp only [back?, values, List.getElem?_eq_none_iff, List.length_append, List.length_cons,
    List.length_nil]
  omega

end Trail

/-- The value that parent and root modifiers lead to, and the trail to go on from. -/
def Trail.select (trail : Trail) (modifiers : Modifiers) : Except Failure (Value × Trail) :=
  match trail.back? modifiers.parent with
  | none => .error (.parentPastRoot modifiers.parent)
  | some v => if 0 < modifiers.root then .ok (trail.root, trail.restart) else .ok (v, trail)

end GraphPath
