import GraphPath.Proofs.Engine.Run
import GraphPath.Proofs.Token.Roles

/-! # What an engine remembers

The cache of an engine is filled under whatever grammar and depth limit are in force,
and it is not emptied when these change.  So two things can be said of it.

**Whatever it holds was read** in the run that led there, by the tokenizer, and since
then the cache has not been empty (`ReadDuring`, `readDuring_of_mem_entries`).  The
grammar and the limit under which an entry was read have thus been in force at some
moment since the cache was last emptied, though they need not be in force any more.

**As long as neither changes, the cache does not show** (`Steady`, `recalls_run`): an
engine that starts with an empty cache answers every text as the tokenizer does,
whatever it is asked in between, and however its cache is resized, emptied, or switched
off and on.  Not even the tables have to stay the same for that, only the roles that
they give to characters.
-/

namespace GraphPath

/-- A request is quiet if it names no character and no depth limit.  Every other operation is. -/
def Operation.Quiet {ε : Type} : Operation ε → Prop
  | .configure options => options.grammar = {} ∧ options.maxDepth? = none
  | _ => True

namespace Engine
variable {ε : Type} {start engine : Engine} {options : Options} {ops : List (Operation ε)}
  {entry : String × TokenTree}

/-! ## Where entries come from -/

/-- **Read at some moment of a run**, under the grammar and the depth limit of that moment, with
the cache never empty since. -/
def ReadDuring (start : Engine) (ops : List (Operation ε)) (entry : String × TokenTree) : Prop :=
  ∃ before since, ops = before ++ since ∧
    (start.run before).grammar.tokenize (start.run before).settings.maxDepth entry.1 =
      .ok entry.2 ∧
    ∀ done, done ≠ [] → done <+: since → (start.run (before ++ done)).cache.entries ≠ []

/-- An operation adds no entry but what it has just read. -/
theorem mem_entries_of_after {op : Operation ε} (h : entry ∈ (engine.after op).cache.entries) :
    entry ∈ engine.cache.entries ∨
      engine.grammar.tokenize engine.settings.maxDepth entry.1 = .ok entry.2 := by
  rcases engine.after_cases op with heq | ⟨path, heq⟩ | heq | ⟨options, grammar, -, heq⟩ <;>
    rw [heq] at h
  · exact Or.inl h
  · obtain ⟨cache, hengine, hcache⟩ := engine.tokenize_cache path
    rw [hengine] at h
    rcases hcache with rfl | ⟨-, rfl | ⟨tree, htree, rfl⟩⟩
    · exact Or.inl h
    · exact Or.inl (Cache.mem_entries_of_get? h)
    · rcases Cache.mem_entries_of_insert h with rfl | h
      · exact Or.inr htree
      · exact Or.inl h
  · cases h
  · exact Or.inl ((entries_reviseCache_sublist engine.cache options).subset h)

/-- **Every entry was read during the run**, if there was none at its start. -/
theorem readDuring_of_mem_entries (hstart : start.cache.entries = [])
    (hentry : entry ∈ (start.run ops).cache.entries) : start.ReadDuring ops entry := by
  induction ops using List.reverseRecOn with
  | nil =>
    rw [run_nil, hstart] at hentry
    cases hentry
  | append_singleton ops op ih =>
    have hnow : (start.run (ops ++ [op])).cache.entries ≠ [] := List.ne_nil_of_mem hentry
    rw [run_concat] at hentry
    rcases mem_entries_of_after hentry with hold | hread
    · obtain ⟨before, since, rfl, hread, hsince⟩ := ih hold
      refine ⟨before, since ++ [op], List.append_assoc _ _ _, hread, fun done hne hdone => ?_⟩
      rcases List.prefix_concat_iff.mp hdone with rfl | hdone
      · rwa [← List.append_assoc]
      · exact hsince done hne hdone
    · refine ⟨ops, [op], rfl, hread, fun done hne hdone => ?_⟩
      rcases List.prefix_concat_iff.mp (show done <+: [] ++ [op] from hdone) with rfl | hdone
      · exact hnow
      · exact absurd (List.prefix_nil.mp hdone) hne

/-! ## Steady runs -/

/-- **A run that changes neither roles nor the depth limit.**  It may change everything else. -/
def Steady (start : Engine) (ops : List (Operation ε)) : Prop :=
  ∀ done, done <+: ops → start.grammar.SameRoles (start.run done).grammar ∧
    (start.run done).settings.maxDepth = start.settings.maxDepth

/-- At every moment of a steady run the tokenizer reads a text as at its start. -/
theorem Steady.tokenize (hsteady : start.Steady ops) {done : List (Operation ε)}
    (hdone : done <+: ops) (path : String) :
    (start.run done).grammar.tokenize (start.run done).settings.maxDepth path =
      start.grammar.tokenize start.settings.maxDepth path := by
  obtain ⟨hroles, hdepth⟩ := hsteady done hdone
  rw [hdepth]
  exact hroles.tokenize _ path

/-- **What is remembered in a steady run is what the tokenizer would answer.** -/
theorem recalls_run (hstart : start.cache.entries = []) (hsteady : start.Steady ops)
    (path : String) : (start.run ops).Recalls path := by
  intro tree htree
  obtain ⟨before, since, rfl, hread, -⟩ :=
    readDuring_of_mem_entries hstart (Cache.mem_of_lookup_eq_some htree)
  rw [hsteady.tokenize (List.prefix_refl _)]
  rw [hsteady.tokenize (List.prefix_append _ _)] at hread
  exact hread

/-- An operation that is no request for a change of grammar or depth limit changes neither. -/
theorem grammar_after_of_quiet (hg : engine.grammar.Valid) {op : Operation ε} (hop : op.Quiet) :
    (engine.after op).grammar = engine.grammar ∧
      (engine.after op).settings.maxDepth = engine.settings.maxDepth := by
  cases op with
  | tokenize path =>
    obtain ⟨cache, hengine⟩ := engine.tokenize_snd path
    rw [after, hengine]
    exact ⟨rfl, rfl⟩
  | resolve host root path new? arguments =>
    rw [after]
    rcases resolve_snd host root path new? arguments with h | ⟨text, h⟩ <;> rw [h]
    · exact ⟨rfl, rfl⟩
    · obtain ⟨cache, hengine⟩ := engine.tokenize_snd text
      rw [hengine]
      exact ⟨rfl, rfl⟩
  | find => exact ⟨rfl, rfl⟩
  | clearCache => exact ⟨rfl, rfl⟩
  | configure options =>
    obtain ⟨hchange, hdepth⟩ := hop
    rcases reconfigure_cases engine options with ⟨fault, h⟩ | ⟨grammar, hmerge, h⟩ <;>
      rw [after, h]
    · exact ⟨rfl, rfl⟩
    · rw [hchange, hg.merge_nothing] at hmerge
      cases hmerge
      refine ⟨rfl, ?_⟩
      show options.maxDepth?.getD engine.settings.maxDepth = _
      rw [hdepth]
      rfl

/-- **A run without requests that name a character or a depth limit is steady.** -/
theorem steady_of_quiet (hg : start.grammar.Valid) (hquiet : ∀ op ∈ ops, op.Quiet) :
    start.Steady ops := by
  have hsame : ∀ done : List (Operation ε), (∀ op ∈ done, op.Quiet) →
      (start.run done).grammar = start.grammar ∧
        (start.run done).settings.maxDepth = start.settings.maxDepth := by
    intro done
    induction done using List.reverseRecOn with
    | nil => exact fun _ => ⟨rfl, rfl⟩
    | append_singleton done op ih =>
      intro hdone
      obtain ⟨hgrammar, hdepth⟩ := ih fun op hop => hdone op (List.mem_append_left _ hop)
      have hop : op.Quiet := hdone op List.mem_concat_self
      obtain ⟨hgrammar', hdepth'⟩ := grammar_after_of_quiet (hgrammar ▸ hg) hop
      rw [run_concat, hgrammar', hdepth']
      exact ⟨hgrammar, hdepth⟩
  intro done hdone
  obtain ⟨hgrammar, hdepth⟩ := hsame done fun op hop => hquiet op (hdone.subset hop)
  exact ⟨hgrammar ▸ .refl _, hdepth⟩

/-! ## Engines made with options -/

/-- An engine made with options is a new one that was configured, and remembers nothing. -/
theorem run_configure_of_ofOptions (hstart : ofOptions options = .ok start) :
    ({} : Engine).run [(.configure options : Operation ε)] = start ∧
      start.cache.entries = [] := by
  have hrun : ({} : Engine).after (.configure options : Operation ε) = start :=
    after_configure hstart
  refine ⟨hrun, ?_⟩
  obtain ⟨-, grammar, -, rfl⟩ := configure_eq_ok hstart
  exact List.sublist_nil.mp (entries_reviseCache_sublist _ options)

/-- **The cache of an engine does not show.**  Of an engine made with any options, and used in any
way:

* whenever its cache is empty, as it is in the beginning, it will answer every text as the
  tokenizer does until the roles of characters or the depth limit change;
* every entry of its cache was read, under the grammar and the limit of a moment since which the
  cache has not been empty;
* there are no more entries than the capacity, of which zero counts as one;
* there are none while the cache is switched off. -/
theorem cache_run (hstart : ofOptions options = .ok start) (ops : List (Operation ε)) :
    start.cache.entries = [] ∧
      (∀ before since, ops = before ++ since → (start.run before).cache.entries = [] →
        (start.run before).Steady since → ∀ path,
          ((start.run ops).tokenize path).1 =
            (start.run ops).grammar.tokenize (start.run ops).settings.maxDepth path) ∧
      (∀ entry ∈ (start.run ops).cache.entries, start.ReadDuring ops entry) ∧
      (start.run ops).cache.size ≤ max 1 (start.run ops).settings.cacheCapacity ∧
      ((start.run ops).settings.cache = false → (start.run ops).cache.isEmpty = true) := by
  obtain ⟨hnew, hempty⟩ := run_configure_of_ofOptions (ε := ε) hstart
  have hkept : (start.run ops).CacheKept := by
    rw [← hnew, ← run_append]
    exact cacheKept_run _
  refine ⟨hempty, ?transparent, fun entry hentry => readDuring_of_mem_entries hempty hentry,
    hkept.capacity ▸ hkept.size, fun hoff => List.isEmpty_iff.mpr (hkept.off hoff)⟩
  case transparent =>
    rintro before since rfl hbefore hsteady path
    rw [run_append]
    exact tokenize_fst (recalls_run hbefore hsteady path)

/-- A new engine whose cache is switched off and on, and made as small as can be, between two
readings of a text. -/
theorem cache_run_switched :
    let ops : List (Operation Unit) :=
      [.tokenize "a[b]", .configure { cache? := some false },
        .configure { cache? := some true, cacheCapacity? := some 0 }, .tokenize "a[b]"]
    ofOptions {} = .ok {} ∧
      ((({} : Engine).run ops).tokenize "a[b]").1 =
        (({} : Engine).run ops).grammar.tokenize (({} : Engine).run ops).settings.maxDepth "a[b]" := by
  intro ops
  have hquiet : ∀ op ∈ ops, op.Quiet := by
    simp [ops, Operation.Quiet]
  have hmade : ofOptions {} = .ok {} := by
    unfold ofOptions configure
    rw [reconfigure_of_merge_eq_ok (by decide) Grammar.default_valid.merge_nothing]
    rfl
  exact ⟨hmade, (cache_run hmade ops).2.1 [] ops rfl rfl
    (steady_of_quiet Grammar.default_valid hquiet) "a[b]"⟩

end Engine

end GraphPath
