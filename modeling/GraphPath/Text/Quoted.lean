import GraphPath.Text.Class

/-!
# Quoted text

A text between quotation marks in which every character can be seen: quotation marks and
backslashes are escaped, the common control characters have short escapes, and any other
character that cannot be shown as itself is given by its code point in hexadecimal.
-/

namespace GraphPath

namespace Text

/-- A character inside quoted text. -/
def quotedChar (c : Char) : String :=
  match c with
  | '\x00' => "\\0"
  | '\t' => "\\t"
  | '\n' => "\\n"
  | '\r' => "\\r"
  | '"' => "\\\""
  | '\\' => "\\\\"
  | c =>
    if isPlain c then c.toString
    else "\\u\x7b" ++ String.ofList (Nat.toDigits 16 c.toNat) ++ "\x7d"

/-- A text between quotation marks, with nothing hidden in it. -/
def quotedText (text : String) : String := "\"" ++ String.join (text.toList.map quotedChar) ++ "\""

end Text

end GraphPath
