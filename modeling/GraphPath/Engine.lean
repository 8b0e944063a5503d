import GraphPath.Cache
import GraphPath.Locate
import GraphPath.Resolve.Flat
import GraphPath.Resolve.Walk
import GraphPath.Settings
import GraphPath.Token.Scan

/-!
# Engines

An `Engine` is a grammar, settings, and a cache of token trees.  It reads path texts
into trees (`tokenize`), resolves paths on a document (`resolve`), finds values
(`find?`), and can be given other options (`configure`).  Options are carried out one
after the other on the engine itself (`reconfigure`), and yet they either take effect as a
whole or not at all.

The cache keeps the trees of texts that were read successfully.  It is not emptied when
the grammar changes: a tree read under an earlier grammar is answered until it is
dropped or the cache is cleared.

A path given as text is resolved without tokens when it is flat; that is decided by
`route`, the only part of resolving that touches the cache.
-/

namespace GraphPath

/-- A path, as text or already read. -/
inductive Path where
  | text (text : String)
  | tokens (tokens : TokenTree)
  deriving Inhabited

/-- How a path is going to be resolved. -/
inductive Route where
  /-- By splitting its text. -/
  | flat (text : String)
  /-- By walking its tokens. -/
  | tree (tokens : TokenTree)

/-- A grammar, settings, and a cache of token trees. -/
structure Engine where
  /-- The grammar that paths are read under. -/
  grammar : Grammar := .default
  /-- The settings. -/
  settings : Settings := {}
  /-- The token trees of texts read before. -/
  cache : Cache TokenTree := .ofCapacity ({} : Settings).cacheCapacity
  deriving Inhabited

namespace Engine

/-! ## Configuration -/

/-- Forget all token trees. -/
def clearCache (engine : Engine) : Engine := { engine with cache := engine.cache.clear }

/-- The cache after a request: emptied when switched off, then brought to its new capacity. -/
def reviseCache (cache : Cache TokenTree) (options : Options) : Cache TokenTree :=
  let cache := if options.cache? = some false then cache.clear else cache
  match options.cacheCapacity? with
  | some capacity => cache.resize capacity
  | none => cache

/-- Change the grammar in place. -/
def changeGrammar (change : Grammar.Change) : EStateM PathError Engine Unit := fun engine =>
  match engine.grammar.merge change with
  | .ok grammar => .ok () { engine with grammar }
  | .error fault => .error (.config fault) engine

/-- Make a change in place if a value is given for it. -/
def adopt {α : Type} (value? : Option α) (change : α → Engine → Engine) :
    EStateM PathError Engine Unit :=
  match value? with
  | some a => modify (change a)
  | none => pure ()

/-- **Carry out a request in place**, one change after the other.  Only the first two can reject
it, so nothing may be changed before them. -/
def reconfigure (options : Options) : EStateM PathError Engine Unit := do
  if options.maxDepth? = some 0 then throw (.config .zeroDepth)
  changeGrammar options.grammar
  adopt options.maxDepth? fun maxDepth engine =>
    { engine with settings.maxDepth := maxDepth }
  adopt options.cache? fun cache engine =>
    let engine := { engine with settings.cache := cache }
    if cache then engine else engine.clearCache
  adopt options.cacheCapacity? fun capacity engine =>
    { engine with
      settings.cacheCapacity := capacity
      cache := engine.cache.resize capacity }
  adopt options.advancedMode? fun advancedMode engine =>
    { engine with settings.advancedMode := advancedMode }
  adopt options.autoVivify? fun autoVivify engine =>
    { engine with settings.autoVivify := autoVivify }

/-- **The engine with other options**, or the reason why they are rejected. -/
def configure (engine : Engine) (options : Options) : Except PathError Engine :=
  match reconfigure options engine with
  | .ok () engine => .ok engine
  | .error e _ => .error e

/-- A new engine with the given options. -/
def ofOptions (options : Options) : Except PathError Engine := configure {} options

/-! ## Reading paths -/

/-- **Read a path text**, from the cache if it is there. -/
def tokenize (engine : Engine) (path : String) : Except PathError TokenTree × Engine :=
  let (hit?, cache) := if engine.settings.cache then engine.cache.get? path else (none, engine.cache)
  match hit? with
  | some tree => (.ok tree, { engine with cache })
  | none =>
    match engine.grammar.tokenize engine.settings.maxDepth path with
    | .error e => (.error e, { engine with cache })
    | .ok tree =>
      let cache := if engine.settings.cache then cache.insert path tree else cache
      (.ok tree, { engine with cache })

/-- A text as one literal key. -/
def escape (engine : Engine) (text : String) : String := engine.grammar.escape text

/-! ## Resolving paths -/

/-- Decide how to resolve a path, reading it if need be. -/
def route (engine : Engine) : Path → Except PathError Route × Engine
  | .tokens tokens => (.ok (.tree tokens), engine)
  | .text text =>
    if engine.grammar.needsTokenizer text then
      let (tree?, engine) := engine.tokenize text
      (tree?.map .tree, engine)
    else (.ok (.flat text), engine)

/-- What stays the same while this engine resolves one path. -/
def setup (engine : Engine) (arguments : List Value) : Setup where
  arguments
  autoVivify := engine.settings.autoVivify
  maxDepth := engine.settings.maxDepth

/-- Resolve a path in a way already decided. -/
def follow {ε : Type} (engine : Engine) (host : Host ε) (root : Value) (new? : Option Value)
    (arguments : List Value) : Route → Resolve ε Value
  | .flat text =>
    resolveFlat (engine.setup arguments) engine.grammar.propertySeparator root text new?
  | .tree tokens => resolveTokens host (engine.setup arguments) root tokens new?

/-- **Resolve a path** from a root, reading the value there or writing a new one; also the engine
with what it has remembered. -/
def resolve {ε : Type} (engine : Engine) (host : Host ε) (root : Value) (path : Path)
    (new? : Option Value) (arguments : List Value) : Resolve ε Value × Engine :=
  let (route?, engine) := engine.route path
  match route? with
  | .error e => (throw e, engine)
  | .ok route => (engine.follow host root new? arguments route, engine)

/-! ## Finding values -/

/-- The paths at which a value occurs below a root. -/
def find? (engine : Engine) (g : Graph) (root target : Value) (mode : FindMode) :
    Option (List String) :=
  g.find? engine.grammar engine.settings.maxDepth root target mode

end Engine

end GraphPath
