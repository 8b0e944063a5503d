import GraphPath.Grammar.Basic

/-!
# Patterns

A key with a wildcard in it is a pattern.  Its first wildcard splits it into what a
matching key begins with and what it ends with; a further wildcard is an ordinary
character of the second part.  The two parts may overlap in the key.
-/

namespace GraphPath

namespace Pattern

/-- What stands in front of the first wildcard; everything if there is none. -/
def front (pattern : List Char) : List Char := pattern.takeWhile (· ≠ wildcardChar)

/-- What stands behind the first wildcard; nothing if there is none. -/
def back (pattern : List Char) : List Char := (pattern.dropWhile (· ≠ wildcardChar)).drop 1

/-- Whether a key begins and ends as a pattern says. -/
def admits (pattern key : String) : Bool :=
  (front pattern.toList).isPrefixOf key.toList && (back pattern.toList).isSuffixOf key.toList

/-- Whether a key is a pattern. -/
def isPattern (key : String) : Bool := key.toList.contains wildcardChar

/-- **A key matches exactly if it begins with the front and ends with the back.** -/
theorem admits_iff (pattern key : String) :
    admits pattern key ↔
      front pattern.toList <+: key.toList ∧ back pattern.toList <:+ key.toList := by
  simp [admits]

example : admits "ab*ba" "aba" ∧ admits "a*b*" "axb*" ∧ !admits "a*b*" "axbx" := by decide +kernel

end Pattern

end GraphPath
