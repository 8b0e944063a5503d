import GraphPath.Text.ClassTable

/-!
# Character classes

White space in the sense of Unicode, and with it `trim`, which takes it off both ends
of a text; and the classes that decide which characters a printed text shows as
themselves (`isPlain`).
-/

namespace GraphPath

/-- Whether a character lies in one of the ranges. -/
def ClassTable.Ranges.has (ranges : ClassTable.Ranges) (c : Char) : Bool :=
  ranges.any fun r => r.1 ≤ c.toNat && c.toNat ≤ r.2

namespace Text

/-- White space. -/
def isBlank (c : Char) : Bool := ClassTable.blank.has c

/-- Whether a character can be shown as itself: it is visible and is not a mark that attaches to
the character in front of it. -/
def isPlain (c : Char) : Bool :=
  if c.toNat < 0x7f then 0x20 ≤ c.toNat
  else !ClassTable.extending.has c && !ClassTable.hidden.has c

/-- The fillers of Hangul syllables are letters, but leave nothing to see; the halfwidth sound
marks follow the letter they change, but stand in a cell of their own. -/
example : !isPlain '\u3164' ∧ !isPlain '\uffa0' ∧ isPlain '\uff9e' ∧ isPlain '\uff9f' := by
  decide +kernel

/-- A row of characters without white space at its front. -/
def trimFront (text : List Char) : List Char := text.dropWhile isBlank

/-- A text without white space at its two ends. -/
def trim (text : String) : String :=
  String.ofList (trimFront (trimFront text.toList).reverse).reverse

/-- What core counts as white space is white space here. -/
theorem isBlank_of_isWhitespace (c : Char) (h : c.isWhitespace) : isBlank c := by
  simp only [Char.isWhitespace, Bool.or_eq_true, decide_eq_true_eq] at h
  rcases h with ((rfl | rfl) | rfl) | rfl <;> decide

end Text

end GraphPath
