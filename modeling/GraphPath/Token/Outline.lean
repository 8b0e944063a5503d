import GraphPath.Text.Quoted
import GraphPath.Token.Basic

/-!
# Token trees in print

A token tree is printed as an `Outline`, one entry to a line and indented by its depth: a
constructor with its values between parentheses, a record with its fields between braces,
a list between brackets.  Every entry ends with a comma; an empty list stays on one line.
-/

namespace GraphPath

/-- A printed structure. -/
inductive Outline where
  /-- A text that stands for itself. -/
  | leaf (text : String)
  /-- A list. -/
  | list (items : List Outline)
  /-- A constructor with its values. -/
  | tuple (name : String) (items : List Outline)
  /-- A record with its fields. -/
  | record (name : String) (fields : List (String × Outline))
  deriving Inhabited

namespace Outline

/-- The indentation of an entry. -/
def indent (depth : Nat) : String := String.ofList (List.replicate (4 * depth) ' ')

/-- Entries between an opening and a closing text, each on a line of its own. -/
def block (opener closer : String) (depth : Nat) (entries : List String) : String :=
  if entries.isEmpty then opener ++ closer
  else
    opener ++ "\n" ++ String.join (entries.map fun entry => indent (depth + 1) ++ entry ++ ",\n") ++
      indent depth ++ closer

mutual

/-- The text of an outline whose first line is already indented. -/
def render (depth : Nat) : Outline → String
  | .leaf text => text
  | .list items => block "[" "]" depth (renderItems (depth + 1) items)
  | .tuple name items => block (name ++ "(") ")" depth (renderItems (depth + 1) items)
  | .record name fields => block (name ++ " \x7b") "\x7d" depth (renderFields (depth + 1) fields)

/-- The texts of the entries of a list. -/
def renderItems (depth : Nat) : List Outline → List String
  | [] => []
  | item :: rest => render depth item :: renderItems depth rest

/-- The texts of the fields of a record. -/
def renderFields (depth : Nat) : List (String × Outline) → List String
  | [] => []
  | (name, field) :: rest => (name ++ ": " ++ render depth field) :: renderFields depth rest

end

end Outline

/-- The outline of modifiers. -/
def Modifiers.outline (m : Modifiers) : Outline :=
  .record "Modifiers"
    [("parent", .leaf m.parent.repr), ("root", .leaf m.root.repr),
     ("placeholder", .leaf m.placeholder.repr), ("context", .leaf m.context.repr)]

/-- The printed name of a container role. -/
def ContainerRole.title : ContainerRole → String
  | .property => "Property"
  | .quote => "Quote"
  | .call => "Call"
  | .evalProperty => "EvalProperty"

mutual

/-- The outline of a token. -/
def Token.outline : Token → Outline
  | .word text => .tuple "Word" [.leaf (Text.quotedText text)]
  | .modified text modifiers =>
    .record "Modified" [("word", .leaf (Text.quotedText text)), ("mods", modifiers.outline)]
  | .container role tree =>
    .record "Container" [("tree", .list (Token.outlines tree)), ("role", .leaf role.title)]
  | .collection members => .tuple "Collection" [.list (Token.outlines members)]

/-- The outlines of tokens. -/
def Token.outlines : List Token → List Outline
  | [] => []
  | token :: rest => token.outline :: Token.outlines rest

end

/-- **A token tree in print.** -/
def TokenTree.pretty (tree : TokenTree) : String := (Outline.list (Token.outlines tree)).render 0

end GraphPath
