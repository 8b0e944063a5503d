import GraphPath.Decimal.Shortest

/-!
# How floats are written

A decimal is laid out by a few decisions, gathered in a `Layout`: where positional
notation ends and an exponent takes over, what marks a whole number as a float, and
how ties between shortest decimals are settled.  Two layouts are in use: `floatKeyText`
for floats that stand for keys, which never has an exponent, and `floatJsonText` for
floats in JSON documents.
-/

namespace GraphPath

/-- The decisions behind a way of writing decimals. -/
structure Layout where
  /-- What settles an exact tie between shortest decimals. -/
  tie : Tie
  /-- Whether a decimal with its point behind so many digits is written without an exponent. -/
  positional : Int → Bool
  /-- What is written behind a whole number without an exponent. -/
  wholeMark : String

namespace Layout

/-- A row of zeros. -/
def zeros (n : Nat) : String := String.ofList (List.replicate n '0')

/-- A decimal without an exponent; its point stands behind `point` digits. -/
def renderPositional (layout : Layout) (digits : String) (point : Int) : String :=
  let count := Int.ofNat digits.length
  if count ≤ point then digits ++ zeros (point - count).toNat ++ layout.wholeMark
  else if 0 < point then
    String.ofList (digits.toList.take point.toNat) ++ "." ++
      String.ofList (digits.toList.drop point.toNat)
  else "0." ++ zeros (-point).toNat ++ digits

/-- A decimal with one digit in front of its point and an exponent with its sign. -/
def renderScientific (digits : String) (point : Int) : String :=
  let power := point - 1
  let fraction := String.ofList (digits.toList.drop 1)
  String.ofList (digits.toList.take 1) ++ (if fraction.isEmpty then "" else "." ++ fraction) ++
    "e" ++ (if power < 0 then "-" else "+") ++ power.natAbs.repr

/-- A decimal in this layout. -/
def render (layout : Layout) (d : Decimal) : String :=
  let digits := d.digits.repr
  let point := Int.ofNat digits.length + d.exponent
  if layout.positional point then layout.renderPositional digits point
  else renderScientific digits point

/-- A finite float in this layout. -/
def renderFloat (layout : Layout) (x : Float) : String :=
  let sign := if x.toBits.toNat < twoTo 63 then "" else "-"
  sign ++ layout.render (.ofFloat x layout.tie)

/-- Floats as keys: all digits are written out, a whole number is written without a point, and a
tie goes away from zero. -/
def key : Layout := ⟨.away, fun _ => true, ""⟩

/-- Floats in JSON: positional from `0.00001` up to sixteen digits before the point, a whole
number ends in `.0`, and a tie goes to the even digit. -/
def json : Layout := ⟨.even, fun point => -5 < point && point ≤ 16, ".0"⟩

end Layout

/-- A float as the text of a key. -/
def floatKeyText (x : Float) : String :=
  if x.isNaN then "NaN"
  else if x.isInf then if x < 0 then "-inf" else "inf"
  else Layout.key.renderFloat x

/-- A finite float as JSON text. -/
def floatJsonText (x : Float) : String := Layout.json.renderFloat x

example : Layout.json.render ⟨1, -6⟩ = "1e-6" ∧ Layout.json.render ⟨1, 15⟩ = "1000000000000000.0" ∧
    Layout.json.render ⟨18446744073709552, 3⟩ = "1.8446744073709552e+19" := by decide +kernel
example : Layout.key.render ⟨15, -11⟩ = "0.00000000015" := by decide +kernel

end GraphPath
