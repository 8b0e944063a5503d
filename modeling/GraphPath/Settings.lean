import GraphPath.Grammar.Basic

/-!
# Settings

`Settings` are what an engine goes by besides its grammar.  `Options` are a request to
change them, and the grammar: what an option leaves open stays as it is.
-/

namespace GraphPath

/-- What an engine goes by besides its grammar. -/
structure Settings where
  /-- Whether token trees are remembered. -/
  cache : Bool := true
  /-- How many token trees are remembered. -/
  cacheCapacity : Nat := 1024
  /-- Kept for later use; nothing depends on it. -/
  advancedMode : Bool := false
  /-- Whether writes make the maps that are missing on their way. -/
  autoVivify : Bool := false
  /-- How deep containers and walks may nest. -/
  maxDepth : Nat := 256
  deriving DecidableEq, Repr, Inhabited

/-- A request to change settings and grammar. -/
structure Options where
  /-- New and removed roles of characters. -/
  grammar : Grammar.Change := {}
  /-- Whether token trees are remembered. -/
  cache? : Option Bool := none
  /-- How many token trees are remembered. -/
  cacheCapacity? : Option Nat := none
  /-- Kept for later use. -/
  advancedMode? : Option Bool := none
  /-- Whether writes make missing maps. -/
  autoVivify? : Option Bool := none
  /-- How deep containers and walks may nest. -/
  maxDepth? : Option Nat := none
  deriving Inhabited

namespace Options

/-- Ask for a modifier, or for the removal of one. -/
def setModifier (options : Options) (c : Char) (modifier? : Option Modifier) : Options :=
  { options with
    grammar.modifiers := options.grammar.modifiers.insert c modifier? }

/-- Ask for a separator, or for the removal of one. -/
def setSeparator (options : Options) (c : Char) (role? : Option SeparatorRole) : Options :=
  { options with
    grammar.separators := options.grammar.separators.insert c role? }

/-- Ask for an enclosure, or for the removal of one. -/
def setEnclosure (options : Options) (opener : Char) (enclosure? : Option Enclosure) : Options :=
  { options with
    grammar.enclosures := options.grammar.enclosures.insert opener enclosure? }

end Options

/-- The settings after a request. -/
def Settings.revise (settings : Settings) (options : Options) : Settings where
  cache := options.cache?.getD settings.cache
  cacheCapacity := options.cacheCapacity?.getD settings.cacheCapacity
  advancedMode := options.advancedMode?.getD settings.advancedMode
  autoVivify := options.autoVivify?.getD settings.autoVivify
  maxDepth := options.maxDepth?.getD settings.maxDepth

end GraphPath
