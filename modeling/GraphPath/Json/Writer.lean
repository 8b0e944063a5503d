import GraphPath.Decimal.Layout
import GraphPath.Json.Basic

/-!
# Writing JSON

A document is written either on one line without any blanks, or over several lines with
every item and member on a line of its own, two blanks further in than its container;
empty containers stay on one line.

In strings only quotation marks, backslashes and control characters are escaped.
-/

namespace GraphPath

namespace Json

/-- A hexadecimal digit, in lower case. -/
def hexDigit (n : Nat) : Char := Nat.digitChar n

/-- A character inside a string. -/
def escapedChar (c : Char) : String :=
  match c with
  | '"' => "\\\""
  | '\\' => "\\\\"
  | '\x08' => "\\b"
  | '\x0c' => "\\f"
  | '\n' => "\\n"
  | '\r' => "\\r"
  | '\t' => "\\t"
  | c =>
    if c.toNat < 0x20 then
      String.ofList ['\\', 'u', '0', '0', hexDigit (c.toNat / 16), hexDigit (c.toNat % 16)]
    else c.toString

/-- A string between quotation marks. -/
def stringText (s : String) : String := "\"" ++ String.join (s.toList.map escapedChar) ++ "\""

/-- The space around the parts of a container. -/
inductive Style where
  /-- No blanks at all. -/
  | compact
  /-- A line for every item, two blanks further in. -/
  | pretty
  deriving DecidableEq, Repr

namespace Style

/-- What stands in front of an item that lies so many containers deep. -/
def lineStart (style : Style) (depth : Nat) : String :=
  match style with
  | .compact => ""
  | .pretty => "\n" ++ String.ofList (List.replicate (2 * depth) ' ')

/-- What stands between a key and its value. -/
def keyEnd : Style → String
  | .compact => ":"
  | .pretty => ": "

/-- A container at a depth, from the texts of its items. -/
def enclose (style : Style) (opener closer : String) (depth : Nat) (items : List String) : String :=
  if items.isEmpty then opener ++ closer
  else
    opener ++ ",".intercalate (items.map (style.lineStart (depth + 1) ++ ·)) ++
      style.lineStart depth ++ closer

end Style

mutual

/-- The text of a document that lies so many containers deep. -/
def render (style : Style) (depth : Nat) : Json → String
  | .null => "null"
  | .bool true => "true"
  | .bool false => "false"
  | .integer n => n.toInt.repr
  | .float x => floatJsonText x
  | .string s => stringText s
  | .array items => style.enclose "[" "]" depth (renderItems style (depth + 1) items)
  | .object members => style.enclose "\x7b" "\x7d" depth (renderMembers style (depth + 1) members)

/-- The texts of the items of an array. -/
def renderItems (style : Style) (depth : Nat) : List Json → List String
  | [] => []
  | item :: rest => render style depth item :: renderItems style depth rest

/-- The texts of the members of an object. -/
def renderMembers (style : Style) (depth : Nat) : List (String × Json) → List String
  | [] => []
  | (key, v) :: rest =>
    (stringText key ++ style.keyEnd ++ render style depth v) :: renderMembers style depth rest

end

/-- **The text of a document.** -/
def toText (style : Style) (json : Json) : String := render style 0 json

end Json

end GraphPath
