import GraphPath.Engine
import GraphPath.Proofs.Resolve.FlatPath

/-! # Path texts and the engine

An engine splits flat paths and reads the others into tokens, with the help of its
cache.  As long as what is remembered of a text is what reading it gives
(`Engine.Recalls`), the cache does not show (`Engine.tokenize_fst`), and neither
does the short way for flat paths: every path text is resolved as by its tokens
(`Engine.resolve_text`).
-/

namespace GraphPath.Engine
variable {engine : Engine} {path : String}

/-- What the cache holds under a text, if anything, is what reading the text gives. -/
def Recalls (engine : Engine) (path : String) : Prop :=
  ∀ tree, engine.cache.entries.lookup path = some tree →
    engine.grammar.tokenize engine.settings.maxDepth path = .ok tree

/-- An engine that remembers nothing recalls every text rightly. -/
theorem recalls_of_empty (hcache : engine.cache.entries = []) (path : String) :
    engine.Recalls path := by
  intro tree htree
  rw [hcache] at htree
  cases htree

/-- **Reading a path is not changed by the cache.** -/
theorem tokenize_fst (hrecalls : engine.Recalls path) :
    (engine.tokenize path).1 = engine.grammar.tokenize engine.settings.maxDepth path := by
  unfold tokenize Cache.get?
  cases engine.settings.cache with
  | false => cases engine.grammar.tokenize engine.settings.maxDepth path <;> rfl
  | true =>
    cases hlookup : engine.cache.entries.lookup path with
    | none => cases engine.grammar.tokenize engine.settings.maxDepth path <;> rfl
    | some tree => exact (hrecalls tree hlookup).symm

/-- Reading a path changes nothing of an engine but its cache. -/
theorem tokenize_snd (engine : Engine) (path : String) :
    ∃ cache, (engine.tokenize path).2 = { engine with cache } := by
  unfold tokenize
  dsimp only
  split
  · exact ⟨_, rfl⟩
  · split <;> exact ⟨_, rfl⟩

section
variable {ε : Type} (host : Host ε) (root : Value) (new? : Option Value) (arguments : List Value)

theorem resolve_text_of_flat (hflat : engine.grammar.needsTokenizer path = false) :
    (engine.resolve host root (.text path) new? arguments).1 =
      resolveFlat (engine.setup arguments) engine.grammar.propertySeparator root path new? := by
  simp [resolve, route, hflat, follow]

theorem resolve_text_of_needsTokenizer (hneeds : engine.grammar.needsTokenizer path = true)
    (hrecalls : engine.Recalls path) :
    (engine.resolve host root (.text path) new? arguments).1 =
      resolveByTokens host engine.grammar (engine.setup arguments) root path new? := by
  obtain ⟨cache, hengine⟩ := engine.tokenize_snd path
  have htokens := tokenize_fst hrecalls
  have hdepth : (engine.setup arguments).maxDepth = engine.settings.maxDepth := rfl
  unfold resolve route resolveByTokens
  simp only [hneeds, if_true, hengine, htokens, hdepth]
  cases engine.grammar.tokenize engine.settings.maxDepth path <;> rfl

/-- **An engine resolves every path text but the empty one as by its tokens.** -/
theorem resolve_text (hgrammar : engine.grammar.Valid) (hrecalls : engine.Recalls path)
    (hne : path ≠ "") (world : World ε) :
    SameOutcome True ((engine.resolve host root (.text path) new? arguments).1 world)
      (resolveByTokens host engine.grammar (engine.setup arguments) root path new? world) := by
  cases hneeds : engine.grammar.needsTokenizer path with
  | false =>
    rw [resolve_text_of_flat host root new? arguments hneeds]
    exact resolveFlat_of_ne_empty host _ root new? world hgrammar hneeds hne
  | true =>
    rw [resolve_text_of_needsTokenizer host root new? arguments hneeds hrecalls]
    exact .refl _ _

end

end GraphPath.Engine
