import GraphPath.Grammar.Escape

/-!
# Lexemes

The smallest pieces of a path text that mean something: a character of a word, a
modifier, a separator, or a container from its opener to its closer with the
interior as raw text.  `Grammar.lexeme` takes the first one off a text, and the
text behind it is always shorter, as is the interior of a container
(`lexeme_rest_lt`, `lexeme_interior_lt`).

Where nothing can be taken off the lexeme says why: a **fault** is found at once,
while a container that never closes is an **open end**, whose fault is reported
only after the word in front of it has been looked at.
-/

namespace GraphPath

/-- One piece of a path text. -/
inductive Lexeme where
  /-- A character of a word: an ordinary one, or any one behind an escape. -/
  | letter (c : Char)
  /-- The wildcard, as part of a word. -/
  | wildcard
  /-- A modifier in front of a word. -/
  | modifier (modifier : Modifier)
  /-- A separator. -/
  | separator (role : SeparatorRole)
  /-- A container with its raw interior; `joins` if a collection separator follows. -/
  | container (role : ContainerRole) (interior : List Char) (joins : Bool)
  /-- A container that never closes, with a fault so many characters behind its opener. -/
  | openEnd (offset : Nat) (fault : SyntaxFault)
  /-- A character that cannot stand where it does. -/
  | fault (fault : SyntaxFault)
  deriving DecidableEq, Repr

/-- What stands behind an opener. -/
inductive Capture where
  /-- The closer is found: the text up to it, and the text behind it. -/
  | closed (interior rest : List Char)
  /-- The text ends before the closer. -/
  | unclosed
  /-- The text ends after an escape character, which has this many characters before it. -/
  | dangling (before : Nat)
  deriving DecidableEq, Repr

/-- Put characters in front of the captured interior. -/
def Capture.prepend (cs : List Char) : Capture → Capture
  | .closed interior rest => .closed (cs ++ interior) rest
  | .unclosed => .unclosed
  | .dangling before => .dangling (cs.length + before)

/-- Read up to the closer that belongs to an opener, with `depth` more openers of the same kind
still open.  Escaped characters are passed over, escape and all.  The closer is tried before the
opener, so where both are one character nothing nests. -/
def capture (opener closer : Char) (depth : Nat) : List Char → Capture
  | [] => .unclosed
  | c :: rest =>
    if c = escapeChar then
      match rest with
      | [] => .dangling 0
      | d :: rest => (capture opener closer depth rest).prepend [c, d]
    else if c = closer then
      match depth with
      | 0 => .closed [] rest
      | depth + 1 => (capture opener closer depth rest).prepend [c]
    else if c = opener then (capture opener closer (depth + 1) rest).prepend [c]
    else (capture opener closer depth rest).prepend [c]

namespace Grammar
variable (g : Grammar)

/-- Whether a text begins with a collection separator. -/
def joins : List Char → Bool
  | [] => false
  | c :: _ => g.separator? c == some .collection

/-- The container that an opener begins, and the text behind it. -/
def containerLexeme (opener : Char) (enclosure : Enclosure) (rest : List Char) :
    Lexeme × List Char :=
  match capture opener enclosure.closer 0 rest with
  | .closed interior rest => (.container enclosure.role interior (g.joins rest), rest)
  | .unclosed => (.openEnd 0 (.unclosed opener enclosure.closer), [])
  | .dangling before => (.openEnd (before + 1) .danglingEscape, [])

/-- **The first lexeme of a text** `c :: rest`, and the text behind it.  A character with several
roles is a modifier before it is a separator, and a separator before it is an opener. -/
def lexeme (c : Char) (rest : List Char) : Lexeme × List Char :=
  if c = escapeChar then
    match rest with
    | [] => (.fault .danglingEscape, [])
    | d :: rest => (.letter d, rest)
  else if let some modifier := g.modifier? c then (.modifier modifier, rest)
  else if let some role := g.separator? c then (.separator role, rest)
  else if let some enclosure := g.enclosure? c then g.containerLexeme c enclosure rest
  else if g.isCloser c then (.fault (.strayCloser c), rest)
  else if c = wildcardChar then (.wildcard, rest)
  else (.letter c, rest)

end Grammar

/-! ## Every lexeme leaves less text behind -/

/-- The raw interior of a lexeme: empty but for containers. -/
def Lexeme.interior : Lexeme → List Char
  | .container _ interior _ => interior
  | _ => []

theorem Capture.prepend_eq_closed {cs : List Char} {capture : Capture} {interior rest} :
    capture.prepend cs = .closed interior rest ↔
      ∃ inner, capture = .closed inner rest ∧ interior = cs ++ inner := by
  cases capture <;> simp [prepend]
  grind

/-- A captured interior and the text behind it fit into the text, with the closer between. -/
theorem length_of_capture_closed {opener closer : Char} {depth : Nat} {text interior rest}
    (h : capture opener closer depth text = .closed interior rest) :
    interior.length + rest.length < text.length := by
  fun_induction capture opener closer depth text generalizing interior with
  | case1 => cases h
  | case2 => cases h
  | case4 => cases h; simp
  | case3 | case5 | case6 | case7 =>
    rename_i ih
    obtain ⟨inner, hinner, rfl⟩ := Capture.prepend_eq_closed.1 h
    have := ih hinner
    simp only [List.length_append, List.length_cons, List.length_nil]
    omega

namespace Grammar
variable (g : Grammar)

theorem containerLexeme_length (opener : Char) (enclosure : Enclosure) (text : List Char) :
    (g.containerLexeme opener enclosure text).1.interior.length +
      (g.containerLexeme opener enclosure text).2.length ≤ text.length := by
  unfold containerLexeme
  split
  · rename_i h
    have := length_of_capture_closed h
    simp only [Lexeme.interior]
    omega
  · simp [Lexeme.interior]
  · simp [Lexeme.interior]

theorem lexeme_length (c : Char) (text : List Char) :
    (g.lexeme c text).1.interior.length + (g.lexeme c text).2.length ≤ text.length := by
  unfold lexeme
  repeat' split
  all_goals first
    | exact g.containerLexeme_length _ _ _
    | simp [Lexeme.interior]

/-- The text behind a lexeme is shorter. -/
theorem lexeme_rest_lt (c : Char) (text : List Char) :
    (g.lexeme c text).2.length < (c :: text).length := by
  have := g.lexeme_length c text
  simp only [List.length_cons]
  omega

/-- The interior of a container is shorter than the text it stands in. -/
theorem lexeme_interior_lt (c : Char) (text : List Char) :
    (g.lexeme c text).1.interior.length < (c :: text).length := by
  have := g.lexeme_length c text
  simp only [List.length_cons]
  omega

end Grammar

end GraphPath
