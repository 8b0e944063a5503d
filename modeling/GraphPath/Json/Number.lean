import GraphPath.Decimal.Digits
import GraphPath.Json.Token

/-!
# The value of a number in JSON

A number without point and exponent is an integer as long as it fits 64 bits, signed or
unsigned; `-0` and everything else is a float.

A float is found in two steps.  Its digits are gathered into a **significand** of 64
bits: a digit that no longer fits is dropped, and so are the digits behind it on its side
of the point.  The significand is rounded to a float and then scaled once by a power of
ten, itself a float.  A number too large for a float has no value.
-/

namespace GraphPath

/-- What a number stands for. -/
inductive NumberValue where
  /-- An integer of 64 bits, signed or unsigned. -/
  | integer (n : Int)
  /-- A finite float. -/
  | float (x : Float)

namespace NumberText

/-- Take digits into a significand until one does not fit: the significand, and the digits left. -/
def gather (significand : Nat) : List Char → Nat × List Char
  | [] => (significand, [])
  | c :: rest =>
    let next := 10 * significand + Digits.digit c
    if next < Digits.limit then gather next rest else (significand, c :: rest)

/-- A power of ten as a float. -/
def powerOfTen (n : Nat) : Float := Float.ofScientific 1 false n

/-- A float times a power of ten; nothing if that is too large.  Division takes two strides when
the power itself would be too large. -/
def scale? (x : Float) (exponent : Int) : Option Float :=
  if x == 0 then some x
  else if 0 ≤ exponent then
    if 308 < exponent then none
    else
      let y := x * powerOfTen exponent.toNat
      if y.isInf then none else some y
  else if -308 ≤ exponent then some (x / powerOfTen exponent.natAbs)
  else if -616 ≤ exponent then some (x / powerOfTen 308 / powerOfTen (exponent.natAbs - 308))
  else some 0

/-- The exponent that is written out, zero if none is. -/
def writtenExponent (text : NumberText) : Int :=
  match text.exponent? with
  | none => 0
  | some (negative, digits) =>
    let size := Int.ofNat (Digits.value digits)
    if negative then -size else size

/-- The size of a number as a float. -/
def size? (text : NumberText) : Option Float :=
  let (significand, dropped) := gather 0 text.whole
  let (significand, exponent) :=
    match text.fraction? with
    | none => (significand, Int.ofNat dropped.length)
    | some digits =>
      let (significand, left) := gather significand digits
      (significand, Int.ofNat dropped.length - Int.ofNat (digits.length - left.length))
  scale? significand.toUInt64.toFloat (exponent + text.writtenExponent)

/-- **The value of a number.** -/
def value? (text : NumberText) : Option NumberValue :=
  let (significand, dropped) := gather 0 text.whole
  let exact := dropped.isEmpty && text.fraction?.isNone && text.exponent?.isNone
  if exact && !text.negative then some (.integer (Int.ofNat significand))
  else if exact && 0 < significand && significand ≤ twoTo 63 then
    some (.integer (-Int.ofNat significand))
  else
    text.size?.map fun x => .float (if text.negative then -x else x)

end NumberText

end GraphPath
