import GraphPath.Decimal.Digits

/-!
# The shortest decimal of a float

A finite float is a whole number times a power of two, `mantissa · 2 ^ exponent`.  A
decimal **reads back** as it when it lies between the two midpoints to the
neighbouring floats; the midpoints themselves count when the mantissa is even.

`shortest` finds the decimal with the fewest digits that reads back, and of those the
one nearest to the float.  On the grid of decimals with a given number of digits only
the two neighbours of the float have to be tried.  All comparisons are exact, between
whole numbers.
-/

namespace GraphPath

/-- The number `digits · 10 ^ exponent`. -/
structure Decimal where
  /-- The digits, as one whole number. -/
  digits : Nat
  /-- The power of ten. -/
  exponent : Int
  deriving DecidableEq, Repr

/-- The size of a finite float, `mantissa · 2 ^ exponent`, with what is needed to know its
neighbours. -/
structure Binary where
  /-- The whole number. -/
  mantissa : Nat
  /-- The power of two. -/
  exponent : Int
  /-- Whether the neighbour below is only half as far away as the one above. -/
  closeBelow : Bool
  deriving DecidableEq, Repr

/-- What an exact tie between two decimals is settled by. -/
inductive Tie where
  /-- The one further from zero. -/
  | away
  /-- The one with an even last digit. -/
  | even
  deriving DecidableEq, Repr

namespace Binary

/-- The size of the float with the given bits; the sign and the case of infinities and NaN are
left to the caller. -/
def ofBits (bits : UInt64) : Binary :=
  let fraction := bits.toNat % twoTo 52
  let biased := bits.toNat / twoTo 52 % twoTo 11
  if biased = 0 then ⟨fraction, -1074, false⟩
  else ⟨twoTo 52 + fraction, Int.ofNat biased - 1075, fraction == 0 && biased != 1⟩

/-- Whether `a · 10 ^ k ≤ b · 2 ^ p`. -/
def decimalLe (a : Nat) (k : Int) (b : Nat) (p : Int) : Bool :=
  a * tenTo k.toNat * twoTo (-p).toNat ≤ b * twoTo p.toNat * tenTo (-k).toNat

/-- Whether `b · 2 ^ p ≤ a · 10 ^ k`. -/
def leDecimal (b : Nat) (p : Int) (a : Nat) (k : Int) : Bool :=
  b * twoTo p.toNat * tenTo (-k).toNat ≤ a * tenTo k.toNat * twoTo (-p).toNat

/-- Whether a decimal reads back as the float.  The midpoints are whole numbers of quarters of
the unit `2 ^ exponent`. -/
def readsBack (x : Binary) (d : Decimal) : Bool :=
  let low := 4 * x.mantissa - if x.closeBelow then 1 else 2
  let high := 4 * x.mantissa + 2
  let unit := x.exponent - 2
  let inside := leDecimal low unit d.digits d.exponent && decimalLe d.digits d.exponent high unit
  let atEnd := decimalLe d.digits d.exponent low unit || leDecimal high unit d.digits d.exponent
  inside && (x.mantissa % 2 == 0 || !atEnd)

/-- The largest whole number of times that `10 ^ k` goes into the float. -/
def floorAt (x : Binary) (k : Int) : Nat :=
  (x.mantissa * twoTo x.exponent.toNat * tenTo (-k).toNat) /
    (tenTo k.toNat * twoTo (-x.exponent).toNat)

/-- The number of decimal digits of a whole number. -/
def digitCount (n : Nat) : Nat := (Nat.toDigits 10 n).length

/-- The power of ten at the first digit of a float that is not zero. -/
def magnitude (x : Binary) : Int :=
  let num := x.mantissa * twoTo x.exponent.toNat
  let den := twoTo (-x.exponent).toNat
  if den ≤ num then Int.ofNat (digitCount (num / den)) - 1
  else -Int.ofNat (digitCount ((den + num - 1) / num - 1))

/-- How the upper one of two neighbours compares with the lower one in nearness: whether the
float lies above the middle of `d · 10 ^ k` and `(d + 1) · 10 ^ k`, on it, or below. -/
def side (x : Binary) (d : Nat) (k : Int) : Ordering :=
  let twice := 2 * x.mantissa
  if !decimalLe (2 * d + 1) k twice x.exponent then .lt
  else if leDecimal twice x.exponent (2 * d + 1) k then .eq
  else .gt

/-- The decimal of `n` digits that reads back as the float, if there is one; the nearer one if
there are two. -/
def onGrid? (x : Binary) (tie : Tie) (n : Nat) : Option Decimal :=
  let k := x.magnitude - Int.ofNat n + 1
  let d := x.floorAt k
  let lower : Decimal := ⟨d, k⟩
  let upper : Decimal := ⟨d + 1, k⟩
  match x.readsBack lower, x.readsBack upper with
  | false, false => none
  | true, false => some lower
  | false, true => some upper
  | true, true =>
    match x.side d k, tie with
    | .lt, _ => some lower
    | .gt, _ => some upper
    | .eq, .away => some upper
    | .eq, .even => some (if d % 2 == 0 then lower else upper)

/-- The decimal without zeros at its end. -/
def trim (digits : Nat) (exponent : Int) : Decimal :=
  if h : digits = 0 then ⟨0, 0⟩
  else if digits % 10 = 0 then trim (digits / 10) (exponent + 1)
  else ⟨digits, exponent⟩
termination_by digits
decreasing_by omega

/-- **The decimal with the fewest digits that reads back as the float**, the nearest of them.
Seventeen digits always suffice. -/
def shortest (x : Binary) (tie : Tie) : Decimal :=
  if x.mantissa = 0 then ⟨0, 0⟩
  else
    match (List.range 17).findSome? fun n => x.onGrid? tie (n + 1) with
    | some d => trim d.digits d.exponent
    | none => ⟨0, 0⟩

end Binary

/-- The shortest decimal of the size of a finite float. -/
def Decimal.ofFloat (x : Float) (tie : Tie) : Decimal := (Binary.ofBits x.toBits).shortest tie

example : (Binary.ofBits 0x3fb999999999999a).shortest .even = ⟨1, -1⟩ := by decide +kernel
example : (Binary.ofBits 1).shortest .even = ⟨5, -324⟩ := by decide +kernel

end GraphPath
