import GraphPath.Engine
import GraphPath.Proofs.Grammar.Merge
import GraphPath.Proofs.Resolve.Words

/-! # Carrying out a request

`Engine.reconfigure` works on the engine in place, setting by setting.  What it comes
to can be said at once: it leaves the engine as it was and fails, or it succeeds and
leaves the engine that `Engine.revised` describes (`reconfigure_cases`).  Nothing can
fail once something has been changed, because the grammar is the first thing to be
changed and the last one to be checked.
-/

namespace GraphPath.Engine
variable {engine : Engine} {options : Options} {grammar : Grammar}

/-- The engine after an accepted request, with its new grammar. -/
def revised (engine : Engine) (options : Options) (grammar : Grammar) : Engine where
  grammar
  settings := engine.settings.revise options
  cache := reviseCache engine.cache options

/-! ## Change by change -/

theorem adopt_apply {α : Type} (value? : Option α) (change : α → Engine → Engine)
    (engine : Engine) :
    adopt value? change engine = .ok () (value?.elim engine fun a => change a engine) := by
  cases value? <;> rfl

theorem reconfigure_of_zeroDepth (hdepth : options.maxDepth? = some 0) :
    reconfigure options engine = .error (.config .zeroDepth) engine := by
  rw [reconfigure, if_pos hdepth]
  rfl

theorem reconfigure_of_merge_eq_error (hdepth : options.maxDepth? ≠ some 0) {fault : ConfigFault}
    (hmerge : engine.grammar.merge options.grammar = .error fault) :
    reconfigure options engine = .error (.config fault) engine := by
  have hchange : changeGrammar options.grammar engine = .error (.config fault) engine := by
    rw [changeGrammar, hmerge]
  rw [reconfigure, if_neg hdepth]
  exact bind_of_error hchange

theorem reconfigure_of_merge_eq_ok (hdepth : options.maxDepth? ≠ some 0)
    (hmerge : engine.grammar.merge options.grammar = .ok grammar) :
    reconfigure options engine = .ok () (engine.revised options grammar) := by
  have hchange : changeGrammar options.grammar engine = .ok () { engine with grammar } := by
    rw [changeGrammar, hmerge]
  rw [reconfigure, if_neg hdepth]
  refine (bind_of_ok hchange).trans ?_
  rw [bind_of_ok (adopt_apply _ _ _), bind_of_ok (adopt_apply _ _ _),
    bind_of_ok (adopt_apply _ _ _), bind_of_ok (adopt_apply _ _ _), adopt_apply]
  -- every change is made or left out by itself
  obtain ⟨change, cache?, capacity?, advancedMode?, autoVivify?, maxDepth?⟩ := options
  rcases cache? with _ | _ | _ <;> cases maxDepth? <;> cases capacity? <;> cases advancedMode? <;>
    cases autoVivify? <;> rfl

/-- **A request is carried out as a whole or not at all.** -/
theorem reconfigure_cases (engine : Engine) (options : Options) :
    (∃ fault, reconfigure options engine = .error (.config fault) engine) ∨
      ∃ grammar, engine.grammar.merge options.grammar = .ok grammar ∧
        reconfigure options engine = .ok () (engine.revised options grammar) := by
  by_cases hdepth : options.maxDepth? = some 0
  · exact Or.inl ⟨_, reconfigure_of_zeroDepth hdepth⟩
  · cases hmerge : engine.grammar.merge options.grammar with
    | error fault => exact Or.inl ⟨fault, reconfigure_of_merge_eq_error hdepth hmerge⟩
    | ok grammar => exact Or.inr ⟨grammar, rfl, reconfigure_of_merge_eq_ok hdepth hmerge⟩

/-- **An accepted request leaves the revised engine**, with the grammar that it has been merged
into. -/
theorem configure_eq_ok {after : Engine} (h : engine.configure options = .ok after) :
    options.maxDepth? ≠ some 0 ∧ ∃ grammar, engine.grammar.merge options.grammar = .ok grammar ∧
      after = engine.revised options grammar := by
  unfold configure at h
  by_cases hdepth : options.maxDepth? = some 0
  · rw [reconfigure_of_zeroDepth hdepth] at h
    cases h
  · refine ⟨hdepth, ?_⟩
    cases hmerge : engine.grammar.merge options.grammar with
    | error fault =>
      rw [reconfigure_of_merge_eq_error hdepth hmerge] at h
      cases h
    | ok grammar =>
      rw [reconfigure_of_merge_eq_ok hdepth hmerge] at h
      cases h
      exact ⟨grammar, rfl, rfl⟩

/-! ## The cache after a request -/

theorem entries_reviseCache_of_off (hoff : options.cache? = some false)
    (cache : Cache TokenTree) : (reviseCache cache options).entries = [] := by
  unfold reviseCache
  rw [if_pos hoff]
  cases options.cacheCapacity? with
  | none => rfl
  | some capacity => exact List.take_nil

theorem entries_reviseCache_of_resized (hon : options.cache? ≠ some false) {capacity : Nat}
    (hcapacity : options.cacheCapacity? = some capacity) (cache : Cache TokenTree) :
    (reviseCache cache options).entries = cache.entries.take (max 1 capacity) := by
  unfold reviseCache
  rw [if_neg hon, hcapacity]
  rfl

theorem entries_reviseCache_of_kept (hon : options.cache? ≠ some false)
    (hcapacity : options.cacheCapacity? = none) (cache : Cache TokenTree) :
    (reviseCache cache options).entries = cache.entries := by
  unfold reviseCache
  rw [if_neg hon, hcapacity]

/-- No request adds an entry. -/
theorem entries_reviseCache_sublist (cache : Cache TokenTree) (options : Options) :
    (reviseCache cache options).entries.Sublist cache.entries := by
  by_cases hon : options.cache? = some false
  · rw [entries_reviseCache_of_off hon]
    exact List.nil_sublist _
  · cases hcapacity : options.cacheCapacity? with
    | none =>
      exact entries_reviseCache_of_kept hon hcapacity cache ▸ List.Sublist.refl _
    | some capacity =>
      rw [entries_reviseCache_of_resized hon hcapacity]
      exact List.take_sublist _ _

theorem capacity_reviseCache (cache : Cache TokenTree) (options : Options) :
    (reviseCache cache options).capacity =
      options.cacheCapacity?.elim cache.capacity (max 1 ·) := by
  unfold reviseCache
  cases options.cacheCapacity? with
  | some capacity => rfl
  | none =>
    dsimp only
    split <;> rfl

end GraphPath.Engine
