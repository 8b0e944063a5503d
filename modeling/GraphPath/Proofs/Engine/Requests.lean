import GraphPath.Proofs.Engine.Run
import GraphPath.Proofs.Grammar.Coherent

/-! # What requests leave behind

Whatever was asked of an engine before, its grammar answers coherently
(`coherent_run`), and the next request has an effect as a whole or none at all
(`reconfigure_run`).  An accepted request sets what it mentions (`Granted`) and leaves
alone what it does not (`Reconfigured`).  Of the token trees it costs only those for
which it says that there is no room.
-/

namespace GraphPath.Engine
variable {ε : Type} {before after : Engine} {options : Options} {grammar : Grammar}

/-- **The grammar of an engine is coherent** after any run, and any changes to it in person. -/
theorem coherent_run (ops : List (Operation ε)) (changes : List Grammar.Change) :
    (changes.foldl Grammar.attempt (({} : Engine).run ops).grammar).Coherent :=
  ((reachable_grammar_run ops).foldl_attempt changes).valid.coherent

/-- **What an accepted request sets**: everything that it mentions. -/
structure Granted (options : Options) (after : Engine) : Prop where
  /-- The entries of the characters that are named. -/
  roles : after.grammar.Obeys options.grammar
  /-- Whether token trees are remembered. -/
  cache : ∀ cache, options.cache? = some cache → after.settings.cache = cache
  /-- The capacity. -/
  cacheCapacity : ∀ capacity, options.cacheCapacity? = some capacity →
    after.settings.cacheCapacity = capacity
  /-- The mode. -/
  advancedMode : ∀ mode, options.advancedMode? = some mode → after.settings.advancedMode = mode
  /-- Whether missing maps are made. -/
  autoVivify : ∀ vivify, options.autoVivify? = some vivify → after.settings.autoVivify = vivify
  /-- The depth limit. -/
  maxDepth : ∀ maxDepth, options.maxDepth? = some maxDepth → after.settings.maxDepth = maxDepth
  /-- No token trees, if the cache is switched off. -/
  emptied : options.cache? = some false → after.cache.entries = []

/-- **An accepted request sets what it mentions**, in any engine. -/
theorem granted_of_configure (h : before.configure options = .ok after) :
    Granted options after := by
  obtain ⟨-, grammar, hmerge, rfl⟩ := configure_eq_ok h
  constructor
  case roles => exact Grammar.obeys_of_merge hmerge
  case emptied =>
    intro hoff
    exact entries_reviseCache_of_off hoff before.cache
  all_goals
    intro value hvalue
    simp only [revised, Settings.revise, hvalue, Option.getD_some]

/-- **What an accepted request leaves alone.** -/
structure Reconfigured (before : Engine) (options : Options) (after : Engine) : Prop where
  /-- The entries of the characters that are not named. -/
  roles : before.grammar.Keeps options.grammar after.grammar
  /-- Whether token trees are remembered, if that is left open. -/
  cache : options.cache? = none → after.settings.cache = before.settings.cache
  /-- The capacity, if it is left open. -/
  cacheCapacity : options.cacheCapacity? = none →
    after.settings.cacheCapacity = before.settings.cacheCapacity
  /-- The mode, if it is left open. -/
  advancedMode : options.advancedMode? = none →
    after.settings.advancedMode = before.settings.advancedMode
  /-- Whether missing maps are made, if that is left open. -/
  autoVivify : options.autoVivify? = none → after.settings.autoVivify = before.settings.autoVivify
  /-- The depth limit, if it is left open. -/
  maxDepth : options.maxDepth? = none → after.settings.maxDepth = before.settings.maxDepth
  /-- All token trees in their order, unless the cache is switched off or made smaller. -/
  kept : options.cache? ≠ some false →
    (∀ capacity, options.cacheCapacity? = some capacity →
      before.settings.cacheCapacity ≤ capacity) →
    after.cache.entries = before.cache.entries
  /-- As many of the most recent token trees as there is room for, if the cache is resized. -/
  evicted : options.cache? ≠ some false →
    ∀ capacity, options.cacheCapacity? = some capacity →
      after.cache.entries = before.cache.entries.take (max 1 capacity)

/-- A cache within its bounds loses nothing by a capacity that is as large as before. -/
theorem CacheKept.entries_reviseCache (hk : before.CacheKept) (hon : options.cache? ≠ some false)
    (hroom : ∀ capacity, options.cacheCapacity? = some capacity →
      before.settings.cacheCapacity ≤ capacity) :
    (reviseCache before.cache options).entries = before.cache.entries := by
  cases hcapacity : options.cacheCapacity? with
  | none => exact entries_reviseCache_of_kept hon hcapacity _
  | some capacity =>
    have hsize : before.cache.size ≤ max 1 capacity := by
      have hlarger := hroom capacity hcapacity
      have hbound := hk.capacity ▸ hk.size
      omega
    rw [entries_reviseCache_of_resized hon hcapacity]
    exact Cache.entries_resize_of_size_le hsize

theorem CacheKept.reconfigured (hk : before.CacheKept) (hg : before.grammar.Valid)
    (hmerge : before.grammar.merge options.grammar = .ok grammar) :
    before.Reconfigured options (before.revised options grammar) where
  roles := hg.keeps_of_merge hmerge
  cache hopen := congrArg (·.getD before.settings.cache) hopen
  cacheCapacity hopen := congrArg (·.getD before.settings.cacheCapacity) hopen
  advancedMode hopen := congrArg (·.getD before.settings.advancedMode) hopen
  autoVivify hopen := congrArg (·.getD before.settings.autoVivify) hopen
  maxDepth hopen := congrArg (·.getD before.settings.maxDepth) hopen
  kept := hk.entries_reviseCache
  evicted hon _ hcapacity := entries_reviseCache_of_resized hon hcapacity _

/-- **A request is rejected without a trace, or leaves alone what it does not mention.** -/
theorem reconfigure_run (ops : List (Operation ε)) (options : Options) :
    match reconfigure options (({} : Engine).run ops) with
    | .error _ left => left = ({} : Engine).run ops
    | .ok () after => (({} : Engine).run ops).Reconfigured options after := by
  rcases reconfigure_cases (({} : Engine).run ops) options with ⟨fault, h⟩ | ⟨grammar, hmerge, h⟩
  · rw [h]
  · rw [h]
    exact (cacheKept_run ops).reconfigured (reachable_grammar_run ops).valid hmerge

end GraphPath.Engine
