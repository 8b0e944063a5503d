import GraphPath.Grammar.Basic

/-!
# Escapes

`Grammar.escape` makes any text safe to stand in a path as one literal key: it
puts the escape character in front of every special character.  In the other
direction two things happen.  `Grammar.stripNeedlessEscapes` drops escapes in
front of characters that are not special, once per text that is scanned;
`unescape` reads quoted text, where every escape is dropped.  All three go from
left to right, two characters at a time at an escape, so that an escaped escape
character never starts a new pair.

`Grammar.needsTokenizer` tells paths that need scanning from flat ones, which
merely consist of words and property separators.
-/

namespace GraphPath

namespace Grammar
variable (g : Grammar)

/-- Whether a path cannot be read by splitting it at the property separator. -/
def needsTokenizer (path : String) : Bool := path.toList.any fun c => g.forcingChars.contains c

/-- The characters of a literal key, with every special one escaped. -/
def escapeChars (text : List Char) : List Char :=
  text.flatMap fun c => if g.escapedChars.contains c then [escapeChar, c] else [c]

/-- **A text as one literal key**: every special character is escaped. -/
def escape (text : String) : String := String.ofList (g.escapeChars text.toList)

/-- Drop the escapes in front of ordinary characters.  An escape character at the very end
stays, for the scanner to report. -/
def stripChars : List Char → List Char
  | [] => []
  | [c] => [c]
  | c :: d :: rest =>
    if c = escapeChar then
      if g.isSpecial d then c :: d :: stripChars rest else d :: stripChars rest
    else c :: stripChars (d :: rest)

/-- A path text without the escapes it does not need. -/
def stripNeedlessEscapes (path : String) : String := String.ofList (g.stripChars path.toList)

/-- Stripping never makes a text longer. -/
theorem length_stripChars_le : ∀ text, (g.stripChars text).length ≤ text.length
  | [] => Nat.le_refl _
  | [_] => Nat.le_refl _
  | c :: d :: rest => by
    unfold stripChars
    have hrest := length_stripChars_le rest
    have hnext := length_stripChars_le (d :: rest)
    split
    · split <;> simp only [List.length_cons] <;> omega
    · simp only [List.length_cons] at hnext ⊢
      omega

end Grammar

/-- Quoted text with every escape resolved: an escaped character stands for itself. -/
def unescape : List Char → List Char
  | [] => []
  | [c] => if c = escapeChar then [] else [c]
  | c :: d :: rest =>
    if c = escapeChar then d :: unescape rest else c :: unescape (d :: rest)

example : Grammar.default.stripChars ['\\', 'b', '\\', '.', '\\'] = ['b', '\\', '.', '\\'] := by
  decide

example : unescape ['a', '\\', '\\', '\\'] = ['a', '\\'] := by decide

end GraphPath
