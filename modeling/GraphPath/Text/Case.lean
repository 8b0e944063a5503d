import GraphPath.Text.CaseTable
import GraphPath.Text.Class

/-!
# Upper and lower case

Whole texts are mapped letter by letter, and a letter may map to several characters.
The one letter whose lower case depends on its surroundings is the Greek capital
sigma: at the end of a word, that is behind a letter with case and before none, it
becomes the final form.
-/

namespace GraphPath

namespace CaseTable

/-- Whether a code point belongs to a run. -/
def Run.has (run : Run) (n : Nat) : Bool :=
  run.first ≤ n && n ≤ run.last && (n - run.first) % run.step == 0

/-- The other case of a letter, by the given tables; a letter in neither is its own. -/
def map (runs : List Run) (expansions : List (Nat × List Nat)) (c : Char) : List Char :=
  match expansions.lookup c.toNat with
  | some codes => codes.map Char.ofNat
  | none =>
    match runs.find? (·.has c.toNat) with
    | some run => [Char.ofNat (Int.ofNat c.toNat + run.shift).toNat]
    | none => [c]

end CaseTable

namespace Text

/-- The upper case of a letter. -/
def upperChar (c : Char) : List Char := CaseTable.map CaseTable.upperRuns CaseTable.upperExpansions c

/-- The lower case of a letter by itself. -/
def lowerChar (c : Char) : List Char := CaseTable.map CaseTable.lowerRuns CaseTable.lowerExpansions c

/-- A text in upper case. -/
def upper (text : String) : String := String.ofList (text.toList.flatMap upperChar)

/-- The Greek capital sigma. -/
def capitalSigma : Char := 'Σ'

/-- The final form of the Greek small sigma. -/
def finalSigma : Char := 'ς'

/-- Whether the first character that counts is a letter with case. -/
def meetsLetter (text : List Char) : Bool :=
  match text.dropWhile ClassTable.caseIgnorable.has with
  | [] => false
  | c :: _ => ClassTable.cased.has c

/-- The lower case of `text` behind the characters `before`, nearest first. -/
def lowerFrom (before : List Char) : List Char → List Char
  | [] => []
  | c :: rest =>
    let lowered :=
      if c = capitalSigma && meetsLetter before && !meetsLetter rest then [finalSigma]
      else lowerChar c
    lowered ++ lowerFrom (c :: before) rest

/-- A text in lower case. -/
def lower (text : String) : String := String.ofList (lowerFrom [] text.toList)

end Text

end GraphPath
