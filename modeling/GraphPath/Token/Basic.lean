import GraphPath.Grammar.Basic

/-!
# Token trees

A path text is read into a list of tokens, one per step.  A **word** is a literal
key; a **modified** word carries modifiers, or a wildcard, or both; a **container**
keeps the tokens of its interior as one unit; a **collection** groups alternatives
that are resolved side by side.  Containers of the roles `property` and `quote`
stand only inside collections: elsewhere the first is spliced into its
surroundings and the second is a word.
-/

namespace GraphPath

/-- How often each modifier stands in front of a word. -/
@[ext] structure Modifiers where
  /-- Steps back to values visited earlier. -/
  parent : Nat := 0
  /-- Restarts from the root. -/
  root : Nat := 0
  /-- Keys taken from an argument. -/
  placeholder : Nat := 0
  /-- Values taken from an argument. -/
  context : Nat := 0
  deriving DecidableEq, Repr

namespace Modifiers

/-- Whether there is no modifier at all. -/
def isEmpty (m : Modifiers) : Bool := m == {}

/-- One more modifier. -/
def add (m : Modifiers) : Modifier → Modifiers
  | .parent => { m with parent := m.parent + 1 }
  | .root => { m with root := m.root + 1 }
  | .placeholder => { m with placeholder := m.placeholder + 1 }
  | .context => { m with context := m.context + 1 }

/-- A single modifier. -/
def single (modifier : Modifier) : Modifiers := ({} : Modifiers).add modifier

/-- A word with a modifier is a modified word. -/
theorem isEmpty_add (m : Modifiers) (modifier : Modifier) : (m.add modifier).isEmpty = false := by
  cases modifier <;> simp [add, isEmpty, Modifiers.ext_iff]

end Modifiers

/-- One step of a path. -/
inductive Token where
  /-- A literal key. -/
  | word (text : String)
  /-- A key with modifiers, or with the wildcard in it. -/
  | modified (word : String) (modifiers : Modifiers)
  /-- A container, with the tokens of its interior. -/
  | container (role : ContainerRole) (tree : List Token)
  /-- Alternatives resolved against the same value. -/
  | collection (members : List Token)
  deriving Repr, Inhabited

/-- The tokens of one path, or of the interior of one container. -/
abbrev TokenTree := List Token

end GraphPath
