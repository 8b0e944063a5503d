import GraphPath.Error
import GraphPath.OrderedMap

/-!
# Grammars

A path is read under a `Grammar`, three tables of single characters: **modifiers**
that stand in front of a word, **separators** between words, and **enclosures**,
each an opening character with its closer and a role.  Exactly one separator has
the role `property`; it is kept in `propertySeparator`, and two lists of characters
that every path text is held against are kept beside it.

Two characters are reserved and never have a role: the escape character `\` makes
the next character literal, and the wildcard `*` makes a word a pattern.

A grammar changes by `Grammar.merge`, which takes new roles and removed roles for
single characters and rejects a change that would break these rules
(`Grammar.Valid`), leaving no trace of it.
-/

namespace GraphPath

/-- The character that makes the next one literal. -/
def escapeChar : Char := '\\'

/-- The character that makes a word a pattern. -/
def wildcardChar : Char := '*'

/-- What a character in front of a word does to it. -/
inductive Modifier where
  /-- Step back to a value visited earlier. -/
  | parent
  /-- Start again from the root. -/
  | root
  /-- Take the key from a positional argument. -/
  | placeholder
  /-- Take the value itself from a positional argument. -/
  | context
  deriving DecidableEq, Repr

/-- What a character between words does. -/
inductive SeparatorRole where
  /-- One step ends and the next begins. -/
  | property
  /-- One alternative ends and the next begins. -/
  | collection
  deriving DecidableEq, Repr

/-- What the interior of a container is. -/
inductive ContainerRole where
  /-- A path of its own, spliced into the outer one. -/
  | property
  /-- Literal text. -/
  | quote
  /-- An argument list. -/
  | call
  /-- A path whose value is used as a key. -/
  | evalProperty
  deriving DecidableEq, Repr

/-- How a container ends, and what its interior is. -/
structure Enclosure where
  /-- The character that closes the container. -/
  closer : Char
  /-- What the interior is. -/
  role : ContainerRole
  deriving DecidableEq, Repr

/-- The tables under which paths are read, and what is kept of them for quick answers. -/
structure Grammar where
  /-- Characters that modify the word behind them. -/
  modifiers : OrderedMap Char Modifier
  /-- Characters that separate words. -/
  separators : OrderedMap Char SeparatorRole
  /-- Characters that open a container. -/
  enclosures : OrderedMap Char Enclosure
  /-- The separator with the role `property`. -/
  propertySeparator : Char
  /-- The characters that force a path through the tokenizer. -/
  forcingChars : List Char
  /-- The characters that are escaped in a literal key. -/
  escapedChars : List Char

namespace Grammar

/-! ## Looking characters up -/

/-- The modifier that a character stands for. -/
def modifier? (g : Grammar) (c : Char) : Option Modifier := g.modifiers.get? c

/-- The separator role of a character. -/
def separator? (g : Grammar) (c : Char) : Option SeparatorRole := g.separators.get? c

/-- The enclosure that a character opens. -/
def enclosure? (g : Grammar) (c : Char) : Option Enclosure := g.enclosures.get? c

/-- The closers of all enclosures. -/
def closers (g : Grammar) : List Char := g.enclosures.values.map Enclosure.closer

/-- Whether a character closes some enclosure. -/
def isCloser (g : Grammar) (c : Char) : Bool := g.closers.contains c

/-- Whether a character is anything but an ordinary letter of a word. -/
def isSpecial (g : Grammar) (c : Char) : Bool :=
  c == escapeChar || c == wildcardChar || g.modifiers.contains c || g.separators.contains c ||
    g.enclosures.contains c || g.isCloser c

/-! ## Building a grammar from its tables -/

/-- The separators with the role `property`, in order. -/
def propertySeparators (separators : OrderedMap Char SeparatorRole) : List Char :=
  (separators.filter fun _ role => role == .property).keys

/-- The grammar with the given tables and property separator.  Every special character but the
property separator forces a path through the tokenizer; all of them are escaped. -/
def ofTables (modifiers : OrderedMap Char Modifier) (separators : OrderedMap Char SeparatorRole)
    (enclosures : OrderedMap Char Enclosure) (propertySeparator : Char) : Grammar :=
  let forcingChars := [escapeChar, wildcardChar] ++ modifiers.keys ++
    separators.keys.filter (· ≠ propertySeparator) ++ enclosures.keys ++
    enclosures.values.map Enclosure.closer
  { modifiers, separators, enclosures, propertySeparator, forcingChars
    escapedChars := forcingChars ++ [propertySeparator] }

/-- The grammar with the given tables, which must have exactly one property separator. -/
def build (modifiers : OrderedMap Char Modifier) (separators : OrderedMap Char SeparatorRole)
    (enclosures : OrderedMap Char Enclosure) : Except ConfigFault Grammar :=
  match propertySeparators separators with
  | [] => .error .noPropertySeparator
  | [c] => .ok (ofTables modifiers separators enclosures c)
  | _ :: _ :: _ => .error .manyPropertySeparators

/-- The grammar in force when nothing is configured. -/
def default : Grammar :=
  ofTables
    (.ofList [('<', .parent), ('~', .root), ('%', .placeholder), ('@', .context)])
    (.ofList [('.', .property), (',', .collection)])
    (.ofList
      [('[', ⟨']', .property⟩), ('\'', ⟨'\'', .quote⟩), ('"', ⟨'"', .quote⟩),
       ('(', ⟨')', .call⟩), ('{', ⟨'}', .evalProperty⟩)])
    '.'

instance : Inhabited Grammar := ⟨default⟩

/-! ## Changing roles -/

/-- New roles for characters; `none` takes the role away. -/
structure Change where
  /-- Changes to the modifiers. -/
  modifiers : OrderedMap Char (Option Modifier) := .empty
  /-- Changes to the separators. -/
  separators : OrderedMap Char (Option SeparatorRole) := .empty
  /-- Changes to the enclosures, by opening character. -/
  enclosures : OrderedMap Char (Option Enclosure) := .empty

instance : Inhabited Change := ⟨{}⟩

/-- All characters that a change would give a role, take one from, or use as a closer. -/
def Change.mentioned (change : Change) : List Char :=
  change.modifiers.keys ++ change.separators.keys ++ change.enclosures.keys ++
    change.enclosures.values.filterMap fun enclosure? => enclosure?.map Enclosure.closer

/-- Whether a character must keep its fixed meaning. -/
def isReserved (c : Char) : Bool := c == escapeChar || c == wildcardChar

/-- One entry of a change, applied to a table. -/
def revise {α : Type} (table : OrderedMap Char α) (entry : Char × Option α) : OrderedMap Char α :=
  match entry.2 with
  | some role => table.insert entry.1 role
  | none => table.erase entry.1

/-- All entries of a change, applied to a table in order. -/
def reviseAll {α : Type} (table : OrderedMap Char α) (change : OrderedMap Char (Option α)) :
    OrderedMap Char α :=
  change.entries.foldl revise table

/-- The separators after a change.  A new property separator takes the place of the old one. -/
def reviseSeparators (table : OrderedMap Char SeparatorRole)
    (change : OrderedMap Char (Option SeparatorRole)) : OrderedMap Char SeparatorRole :=
  let kept :=
    if change.values.contains (some .property) then
      table.filter fun _ role => role != .property
    else table
  reviseAll kept change

/-- **The grammar after a change.**  A change that mentions a reserved character, or leaves
other than one property separator, is rejected as a whole. -/
def merge (g : Grammar) (change : Change) : Except ConfigFault Grammar :=
  match change.mentioned.find? isReserved with
  | some c => .error (.reserved c)
  | none =>
    build (reviseAll g.modifiers change.modifiers)
      (reviseSeparators g.separators change.separators)
      (reviseAll g.enclosures change.enclosures)

/-! ## Valid grammars -/

/-- All characters with a role of their own. -/
def roleChars (g : Grammar) : List Char :=
  g.modifiers.keys ++ g.separators.keys ++ g.enclosures.keys ++ g.closers

/-- The rules every grammar in force obeys: one property separator, no role for a reserved
character, and nothing kept beside the tables but what follows from them. -/
structure Valid (g : Grammar) : Prop where
  /-- The property separator is the only separator with that role. -/
  property : propertySeparators g.separators = [g.propertySeparator]
  /-- No reserved character has a role. -/
  unreserved : ∀ c ∈ g.roleChars, isReserved c = false
  /-- What is kept of the tables is up to date. -/
  derived : g = ofTables g.modifiers g.separators g.enclosures g.propertySeparator

theorem default_valid : default.Valid where
  property := by decide
  unreserved c hc := by
    have none_reserved : default.roleChars.all (fun c => !isReserved c) = true := by decide
    simpa using List.all_eq_true.1 none_reserved c hc
  derived := rfl

example : default.isCloser '\'' ∧ default.isSpecial '*' ∧ !default.isSpecial 'a' := by decide

end Grammar

end GraphPath
