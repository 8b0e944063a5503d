/-!
# Whole numbers in decimal

`Digits.value` is the number a row of decimal digits stands for, and the two
readers below are the two ways in which a path names a number: the position of an
item in a list (digits and nothing else) and the position of an argument (digits,
perhaps behind a plus sign).  Both stop at 64 bits.
-/

namespace GraphPath

/-- A power of two. -/
def twoTo (n : Nat) : Nat := Nat.pow 2 n

/-- A power of ten. -/
def tenTo (n : Nat) : Nat := Nat.pow 10 n

namespace Digits

/-- The digit that a character stands for. -/
def digit (c : Char) : Nat := c.toNat - '0'.toNat

/-- The number that a row of digits continues from `n`. -/
def valueFrom (n : Nat) (text : List Char) : Nat := text.foldl (fun n c => 10 * n + digit c) n

/-- The number that a row of digits stands for. -/
def value (text : List Char) : Nat := valueFrom 0 text

/-- Numbers that are read end below this one. -/
def limit : Nat := twoTo 64

/-- Read a non-empty row of digits as a number below the limit. -/
def read? (text : List Char) : Option Nat :=
  if !text.isEmpty && text.all Char.isDigit && value text < limit then some (value text) else none

end Digits

/-- The list position that a key names. -/
def listIndex? (key : String) : Option Nat := Digits.read? key.toList

/-- The argument position that a word names; a plus sign may stand in front. -/
def argumentIndex? (word : String) : Option Nat :=
  match word.toList with
  | '+' :: digits => Digits.read? digits
  | digits => Digits.read? digits

example : Digits.read? ['0', '1', '2'] = some 12 ∧ Digits.read? [] = none := by decide

end GraphPath
