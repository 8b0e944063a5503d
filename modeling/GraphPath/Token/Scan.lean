import GraphPath.Token.Basic
import GraphPath.Token.Lexeme

/-!
# From text to tokens

A path text is scanned lexeme by lexeme.  What has been read so far is a `Draft`:
finished tokens, the members of a collection that is still open, and the word at
hand with its modifiers.  `Draft.step` says what one lexeme does to it, and
`Draft.finish` what is left at the end of the text.  Neither knows positions: a
fault belongs to the place where its lexeme begins, and `Grammar.scan` adds that.

A container is read in three moves — the word in front of it is finished, its
interior is tokenized one level deeper, and the result is filed by `Draft.enclose`.
Interiors are shorter than the text they stand in, so the recursion ends by itself;
the depth limit is a rule of the language, checked when a text is entered.

Positions count the characters of the text being scanned, after needless escapes
have been dropped from it; inside a container they start again from its interior.
-/

namespace GraphPath

/-- What has been read of a path so far. -/
structure Draft where
  /-- Finished tokens. -/
  tokens : List Token := []
  /-- Members of the collection that is still open; empty if none is. -/
  members : List Token := []
  /-- The word at hand. -/
  word : List Char := []
  /-- The modifiers in front of it. -/
  modifiers : Modifiers := {}
  /-- Whether the word has a wildcard in it. -/
  patterned : Bool := false
  /-- Whether anything stands in the current segment yet. -/
  filled : Bool := false
  /-- Whether a separator has been read. -/
  separated : Bool := false
  deriving Repr, Inhabited

namespace Draft

/-- Add a character to the word. -/
def push (d : Draft) (c : Char) : Draft := { d with word := d.word ++ [c], filled := true }

/-- The word at hand as a token. -/
def wordToken (d : Draft) : Token :=
  if d.modifiers.isEmpty && !d.patterned then .word (String.ofList d.word)
  else .modified (String.ofList d.word) d.modifiers

/-- Take the word at hand, if there is one.  Modifiers need a word to modify. -/
def takeWord (d : Draft) : Except SyntaxFault (Option Token × Draft) :=
  if d.word.isEmpty then
    if d.modifiers.isEmpty then .ok (none, d) else .error .bareModifier
  else .ok (some d.wordToken, { d with word := [], modifiers := {}, patterned := false })

/-- File a token: into the open collection, or among the finished tokens. -/
def file (d : Draft) (token : Token) : Draft :=
  if d.members.isEmpty then { d with tokens := d.tokens ++ [token] }
  else { d with members := d.members ++ [token] }

/-- Close the open collection, if there is one. -/
def closeCollection (d : Draft) : Draft :=
  if d.members.isEmpty then d
  else { d with tokens := d.tokens ++ [.collection d.members], members := [] }

/-- Take the word at hand and file it. -/
def fileWord (d : Draft) : Except SyntaxFault Draft :=
  match d.takeWord with
  | .error fault => .error fault
  | .ok (none, d) => .ok d
  | .ok (some token, d) => .ok (d.file token)

/-- Read a separator.  A property separator files the word and closes the collection; a
collection separator makes the word a member. -/
def separate (d : Draft) (role : SeparatorRole) : Except SyntaxFault Draft :=
  match d.takeWord with
  | .error fault => .error fault
  | .ok (word?, d) =>
    if word?.isNone && !d.filled then .error .emptySegment
    else
      let d := match role, word? with
        | .property, none => d.closeCollection
        | .property, some token => (d.file token).closeCollection
        | .collection, none => d
        | .collection, some token => { d with members := d.members ++ [token] }
      .ok { d with filled := false, separated := true }

/-- What one lexeme other than a container does to the draft. -/
def step (d : Draft) : Lexeme → Except SyntaxFault Draft
  | .letter c => .ok (d.push c)
  | .wildcard => .ok { d.push wildcardChar with patterned := true }
  | .modifier modifier => .ok { d with modifiers := d.modifiers.add modifier }
  | .separator role => d.separate role
  | .fault fault => .error fault
  | .container .. | .openEnd .. => .ok d

/-- File a container whose interior has been read.  Next to a collection separator, or while a
collection is open, it is a `member`, the last one unless it `joins` another; elsewhere it
stands for the tokens `alone`. -/
def enclose (d : Draft) (member : Token) (alone : List Token) (joins : Bool) : Draft :=
  let d :=
    if joins then { d with members := d.members ++ [member] }
    else if d.members.isEmpty then { d with tokens := d.tokens ++ alone }
    else { d with members := d.members ++ [member] }.closeCollection
  { d with filled := true }

/-- The tokens of a text that ends here. -/
def finish (d : Draft) : Except SyntaxFault (List Token) :=
  match d.takeWord with
  | .error fault => .error fault
  | .ok (some token, d) => .ok (d.file token).closeCollection.tokens
  | .ok (none, d) =>
    if d.separated && !d.filled then .error .trailingSeparator else .ok d.closeCollection.tokens

end Draft

/-- Report a fault at a position. -/
def atPosition {α : Type} (position : Nat) : Except SyntaxFault α → Except PathError α :=
  Except.mapError (PathError.malformed position)

namespace Grammar
variable (g : Grammar) (maxDepth : Nat)

mutual

/-- The tokens of a text that stands inside `level` containers. -/
def tokenizeAt (level : Nat) (text : List Char) : Except PathError TokenTree :=
  if level > maxDepth then .error (.tooDeep maxDepth)
  else scan level (g.stripChars text).length {} (g.stripChars text)
termination_by (text.length, 1)
decreasing_by
  have := g.length_stripChars_le text
  simp only [Prod.lex_def]
  omega

/-- Read on from a draft, with `text` still ahead of a text of `size` characters. -/
def scan (level size : Nat) (d : Draft) (text : List Char) : Except PathError TokenTree :=
  match text with
  | [] => atPosition size d.finish
  | c :: ahead =>
    let position := size - (c :: ahead).length
    match h : g.lexeme c ahead with
    | (.container .quote interior joins, rest) => do
      let d ← atPosition position d.fileWord
      let token := Token.word (String.ofList (unescape interior))
      scan level size (d.enclose token [token] joins) rest
    | (.container .property interior joins, rest) => do
      let d ← atPosition position d.fileWord
      let tree ← tokenizeAt (level + 1) interior
      scan level size (d.enclose (.container .property tree) tree joins) rest
    | (.container role interior joins, rest) => do
      let d ← atPosition position d.fileWord
      let tree ← tokenizeAt (level + 1) interior
      scan level size (d.enclose (.container role tree) [.container role tree] joins) rest
    | (.openEnd offset fault, _) => do
      let _ ← atPosition position d.fileWord
      .error (.malformed (position + offset) fault)
    | (lexeme, rest) => do
      let d ← atPosition position (d.step lexeme)
      scan level size d rest
termination_by (text.length, 0)
decreasing_by
  all_goals
    have hrest := g.lexeme_rest_lt c ahead
    have hinterior := g.lexeme_interior_lt c ahead
    simp only [h, Lexeme.interior] at hrest hinterior
    simp only [Prod.lex_def]
    omega

end

/-- **The token tree of a path text.** -/
def tokenize (path : String) : Except PathError TokenTree := g.tokenizeAt maxDepth 0 path.toList

end Grammar

end GraphPath
