import GraphPath.Proofs.Cache
import GraphPath.Proofs.Engine.Configure
import GraphPath.Proofs.Resolve.PathText
import Mathlib.Data.List.Induction

/-! # Runs of an engine

Whatever is asked of an engine, one request after the other, is an `Operation`, and
`Engine.run` carries out a row of them.  A new engine is `{}`, so that the engines that
can be reached are those of the form `({} : Engine).run ops`; one that is made with
options is a new one that was configured first, and one that host functions use while
it is resolving a path makes no other runs (`Shared.resolve_uses`).

Of all that an operation can do to an engine there are only four kinds
(`after_cases`): nothing, reading a text, emptying the cache, and carrying out a
request that is accepted.  What holds of every engine that can be reached is proved
for these four and then for runs by induction; here this is done for the grammar
(`reachable_grammar_run`) and for the bounds of the cache (`cacheKept_run`).
-/

namespace GraphPath

/-- What can be asked of an engine, by a caller whose host has states of type `ε`. -/
inductive Operation (ε : Type) where
  /-- Read a path text, for its tokens or to see whether it is well-formed. -/
  | tokenize (path : String)
  /-- Read the value at a path, or write a new one there. -/
  | resolve (host : Host ε) (root : Value) (path : Path) (new? : Option Value)
    (arguments : List Value)
  /-- Look for a value. -/
  | find (g : Graph) (root target : Value) (mode : FindMode)
  /-- Forget all token trees. -/
  | clearCache
  /-- Ask for other options. -/
  | configure (options : Options)

namespace Engine
variable {ε : Type} {engine : Engine} {op : Operation ε} {ops : List (Operation ε)}

/-- The engine that an operation leaves, whether it succeeds or fails. -/
def after (engine : Engine) : Operation ε → Engine
  | .tokenize path => (engine.tokenize path).2
  | .resolve host root path new? arguments => (engine.resolve host root path new? arguments).2
  | .find _ _ _ _ => engine
  | .clearCache => engine.clearCache
  | .configure options =>
    match reconfigure options engine with
    | .ok () left => left
    | .error _ left => left

/-- The engine that a row of operations leaves. -/
def run (engine : Engine) (ops : List (Operation ε)) : Engine := ops.foldl after engine

@[simp] theorem run_nil : engine.run ([] : List (Operation ε)) = engine := rfl

theorem run_append (ops ops' : List (Operation ε)) :
    engine.run (ops ++ ops') = (engine.run ops).run ops' := List.foldl_append

theorem run_concat (ops : List (Operation ε)) (op : Operation ε) :
    engine.run (ops ++ [op]) = (engine.run ops).after op := run_append ops [op]

/-! ## What an operation can do -/

/-- Reading a text changes nothing of an engine but its cache.  There a hit becomes the most
recent entry; what had to be read is stored if it could be. -/
theorem tokenize_cache (engine : Engine) (path : String) :
    ∃ cache, (engine.tokenize path).2 = { engine with cache } ∧
      (cache = engine.cache ∨ engine.settings.cache = true ∧
        (cache = (engine.cache.get? path).2 ∨
          ∃ tree, engine.grammar.tokenize engine.settings.maxDepth path = .ok tree ∧
            cache = engine.cache.insert path tree)) := by
  unfold tokenize Cache.get?
  cases hon : engine.settings.cache with
  | false =>
    cases engine.grammar.tokenize engine.settings.maxDepth path with
    | error e => exact ⟨_, rfl, Or.inl rfl⟩
    | ok tree => exact ⟨_, rfl, Or.inl rfl⟩
  | true =>
    cases engine.cache.entries.lookup path with
    | some tree => exact ⟨_, rfl, Or.inr ⟨rfl, Or.inl rfl⟩⟩
    | none =>
      cases engine.grammar.tokenize engine.settings.maxDepth path with
      | error e => exact ⟨_, rfl, Or.inl rfl⟩
      | ok tree => exact ⟨_, rfl, Or.inr ⟨rfl, Or.inr ⟨tree, rfl, rfl⟩⟩⟩

/-- Resolving a path reads its text, if there is one and it has to be read. -/
theorem resolve_snd (host : Host ε) (root : Value) (path : Path) (new? : Option Value)
    (arguments : List Value) :
    (engine.resolve host root path new? arguments).2 = engine ∨
      ∃ text, (engine.resolve host root path new? arguments).2 = (engine.tokenize text).2 := by
  have hroute : (engine.resolve host root path new? arguments).2 = (engine.route path).2 := by
    unfold resolve
    dsimp only
    split <;> rfl
  rw [hroute]
  cases path with
  | tokens tokens => exact Or.inl rfl
  | text text =>
    by_cases hneeds : engine.grammar.needsTokenizer text = true
    · exact Or.inr ⟨text, by rw [route, if_pos hneeds]⟩
    · exact Or.inl (by rw [route, if_neg hneeds])

/-- **All that an operation can do to an engine.** -/
theorem after_cases (engine : Engine) (op : Operation ε) :
    engine.after op = engine ∨
      (∃ path, engine.after op = (engine.tokenize path).2) ∨
      engine.after op = engine.clearCache ∨
      ∃ options grammar, engine.grammar.merge options.grammar = .ok grammar ∧
        engine.after op = engine.revised options grammar := by
  cases op with
  | tokenize path => exact Or.inr (Or.inl ⟨path, rfl⟩)
  | resolve host root path new? arguments =>
    exact (resolve_snd host root path new? arguments).imp_right Or.inl
  | find => exact Or.inl rfl
  | clearCache => exact Or.inr (Or.inr (Or.inl rfl))
  | configure options =>
    rcases reconfigure_cases engine options with ⟨fault, h⟩ | ⟨grammar, hmerge, h⟩
    · left
      rw [after, h]
    · refine Or.inr (Or.inr (Or.inr ⟨options, grammar, hmerge, ?_⟩))
      rw [after, h]

/-- An accepted request is an operation of its own. -/
theorem after_configure {options : Options} {left : Engine}
    (h : engine.configure options = .ok left) :
    engine.after (.configure options : Operation ε) = left := by
  unfold Engine.configure at h
  rw [after]
  rcases reconfigure_cases engine options with ⟨fault, hleft⟩ | ⟨grammar, -, hleft⟩ <;>
    rw [hleft] at h ⊢ <;> cases h
  rfl

/-! ## The grammar of an engine -/

theorem reachable_grammar_after (hg : engine.grammar.Reachable) :
    (engine.after op).grammar.Reachable := by
  rcases engine.after_cases op with h | ⟨path, h⟩ | h | ⟨options, grammar, hmerge, h⟩ <;> rw [h]
  · exact hg
  · obtain ⟨cache, hcache, -⟩ := engine.tokenize_cache path
    rw [hcache]
    exact hg
  · exact hg
  · have hchanged : engine.grammar.attempt options.grammar = grammar := by
      rw [Grammar.attempt, hmerge]
    exact hchanged ▸ hg.change options.grammar

/-- **The grammar of an engine can always be in force.** -/
theorem reachable_grammar_run (ops : List (Operation ε)) :
    (({} : Engine).run ops).grammar.Reachable := by
  induction ops using List.reverseRecOn with
  | nil => exact .initial
  | append_singleton ops op ih =>
    rw [run_concat]
    exact reachable_grammar_after ih

/-! ## The bounds of the cache -/

/-- **How much an engine may remember**: as much as its settings say, and nothing while the cache
is switched off. -/
structure CacheKept (engine : Engine) : Prop where
  /-- The cache has the capacity of the settings, of which zero counts as one. -/
  capacity : engine.cache.capacity = max 1 engine.settings.cacheCapacity
  /-- The capacity is not exceeded. -/
  size : engine.cache.size ≤ engine.cache.capacity
  /-- Nothing is remembered while the cache is switched off. -/
  off : engine.settings.cache = false → engine.cache.entries = []

theorem CacheKept.tokenize (hk : engine.CacheKept) (path : String) :
    (engine.tokenize path).2.CacheKept := by
  obtain ⟨cache, hengine, hcache⟩ := engine.tokenize_cache path
  rw [hengine]
  rcases hcache with rfl | ⟨hon, rfl | ⟨tree, -, rfl⟩⟩
  · exact hk
  · refine ⟨Cache.capacity_get?.trans hk.capacity, ?_, fun hoff => ?_⟩
    · rw [Cache.capacity_get?]
      exact Nat.le_trans (Cache.size_get?_le _ _) hk.size
    · exact absurd (hon.symm.trans hoff) (by decide)
  · refine ⟨hk.capacity, Cache.size_insert_le _ _ _, fun hoff => ?_⟩
    exact absurd (hon.symm.trans hoff) (by decide)

theorem CacheKept.clearCache (hk : engine.CacheKept) : engine.clearCache.CacheKept :=
  ⟨hk.capacity, Nat.zero_le _, fun _ => rfl⟩

theorem CacheKept.revised (hk : engine.CacheKept) (options : Options) (grammar : Grammar) :
    (engine.revised options grammar).CacheKept := by
  have hsublist := entries_reviseCache_sublist engine.cache options
  refine ⟨?capacity, ?size, fun hoff => ?off⟩
  case capacity =>
    show (reviseCache engine.cache options).capacity = _
    rw [capacity_reviseCache, hk.capacity]
    simp only [Engine.revised, Settings.revise]
    cases options.cacheCapacity? <;> rfl
  case size =>
    show (reviseCache engine.cache options).size ≤ (reviseCache engine.cache options).capacity
    cases hcapacity : options.cacheCapacity? with
    | none =>
      rw [capacity_reviseCache, hcapacity]
      exact Nat.le_trans hsublist.length_le hk.size
    | some capacity =>
      rw [reviseCache, hcapacity]
      exact Cache.size_resize_le _ _
  case off =>
    show (reviseCache engine.cache options).entries = []
    by_cases hcache : options.cache? = some false
    · exact entries_reviseCache_of_off hcache _
    · -- it must have been off before, and so empty
      have hbefore : engine.settings.cache = false := by
        change options.cache?.getD engine.settings.cache = false at hoff
        cases hcache? : options.cache? with
        | none => rwa [hcache?] at hoff
        | some on =>
          rw [hcache?] at hoff hcache
          exact absurd (congrArg some hoff) hcache
      exact List.sublist_nil.mp (hk.off hbefore ▸ hsublist)

theorem CacheKept.after (hk : engine.CacheKept) (op : Operation ε) : (engine.after op).CacheKept := by
  rcases engine.after_cases op with h | ⟨path, h⟩ | h | ⟨options, grammar, -, h⟩ <;> rw [h]
  · exact hk
  · exact hk.tokenize path
  · exact hk.clearCache
  · exact hk.revised options grammar

/-- **No engine remembers more than it may.** -/
theorem cacheKept_run (ops : List (Operation ε)) : (({} : Engine).run ops).CacheKept := by
  induction ops using List.reverseRecOn with
  | nil => exact ⟨rfl, Nat.zero_le _, fun _ => rfl⟩
  | append_singleton ops op ih =>
    rw [run_concat]
    exact ih.after op

end Engine

end GraphPath
