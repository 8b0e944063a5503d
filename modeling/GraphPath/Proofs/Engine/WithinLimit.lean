import GraphPath.Proofs.Engine.Malformed
import GraphPath.Proofs.Resolve.WalkDepth
import GraphPath.Proofs.Token.DepthLimit

/-! # Paths within the limit

One limit is put to two things: how deep containers nest in a path text, and how deep walks do
when the path is resolved.  A path can be within it as a text and too deep for a resolution, as
soon as there is a collection inside a container (`collection_in_brackets_is_too_deep`): the
alternatives of a collection are walks, and no containers.

This is the only way.  **A path whose walks nest within the limit is resolved without being too
deep**, and **walks nest at most as deep as containers and collections together**
(`Engine.resolve_withinLimit`).  So no path without collections that can be read is too deep
(`Engine.resolve_without_collections`), and neither is a path that is read under a limit `n` for a
resolution under a limit of `2 * n + 1` or more (`Engine.resolve_under_double`).
-/

namespace GraphPath

section
variable {ε : Type} {setup : Setup} {root : Value}

/-- Without functions of the host, walks within the limit are never too deep. -/
theorem not_failsWith_of_withinLimit {tokens : List Token}
    (hdepth : Token.walkDepths tokens ≤ setup.maxDepth) (new? : Option Value) (world : World ε) :
    ¬ FailsWith .resourceExhausted (resolveTokens Host.none setup root tokens new? world) := by
  have hstep : ∀ e : PathError, e.OfStep → e.kind ≠ .resourceExhausted := by
    intro e he
    cases e with
    | tooDeep limit => exact he.elim
    | _ => exact nofun
  have hnone : (Host.none : Host ε).FailsOnly fun e => e.kind ≠ .resourceExhausted :=
    fun _ _ _ => .throw (hstep _ trivial)
  rintro ⟨e, after, herror, hkind⟩
  exact resolveTokens_withinLimit hstep hnone hdepth root new? world e after herror hkind

end

namespace Engine
variable {ε : Type} {engine : Engine} {options : Options} {host : Host ε} {world : World ε}
  {root : Value} {new? : Option Value} {arguments : List Value} {path : String} {tree : TokenTree}

/-- A new engine reads a path as its grammar and its limit say. -/
theorem tokenize_of_ofOptions (hmade : ofOptions options = .ok engine) :
    (engine.tokenize path).1 = engine.grammar.tokenize engine.settings.maxDepth path :=
  tokenize_fst (recalls_of_empty (run_configure_of_ofOptions (ε := Unit) hmade).2 path)

/-- The bounds of a tree that was read. -/
theorem depths_of_tokenize {grammar : Grammar} {maxDepth : Nat}
    (hread : grammar.tokenize maxDepth path = .ok tree) :
    Token.depths tree ≤ maxDepth ∧ Token.collectionDepths tree ≤ Token.depths tree + 1 := by
  obtain ⟨hsteps, hcontainers⟩ :=
    Token.areSteps_and_depths_le_iff.mpr (Grammar.stepsAt_of_tokenizeAt hread).2
  exact ⟨hcontainers, Token.collectionDepths_le hsteps⟩

/-- A path is not too deep for a resolution if its walks nest within the limit. -/
theorem resolve_of_walkDepths_le (hmade : ofOptions options = .ok engine)
    (hgraph : world.graph.HostFree) (hroot : root.HostFree)
    (harguments : ∀ v ∈ arguments, v.HostFree) (hnew : ∀ v, new? = some v → v.HostFree)
    (hread : engine.grammar.tokenize engine.settings.maxDepth path = .ok tree)
    (hdepth : Token.walkDepths tree ≤ engine.settings.maxDepth) :
    ¬ FailsWith .resourceExhausted
      ((engine.resolve host root (.text path) new? arguments).1 world) := by
  obtain ⟨hrun, hempty⟩ := run_configure_of_ofOptions (ε := ε) hmade
  have hvalid : engine.grammar.Valid := by
    rw [← hrun]
    exact (reachable_grammar_run _).valid
  by_cases hne : path = ""
  · -- the empty path is malformed, whatever the limit
    subst hne
    obtain ⟨e, after, herror, hkind⟩ :=
      resolve_empty_failsWith engine host root new? arguments world
    rintro ⟨e', after', herror', hkind'⟩
    rw [herror] at herror'
    cases herror'
    rw [hkind] at hkind'
    cases hkind'
  · rw [(resolve_text host root new? arguments hvalid (recalls_of_empty hempty path) hne
        world).failsWith_iff,
      resolveByTokens_of_ok hread, resolveTokens_hostFree hgraph hroot harguments hnew]
    exact not_failsWith_of_withinLimit hdepth new? world

/-- **A path is too deep for a resolution only if its walks nest deeper than the limit**, which
takes collections: they nest at most as deep as containers, which are within the limit, and
collections together. -/
theorem resolve_withinLimit (hmade : ofOptions options = .ok engine)
    (hgraph : world.graph.HostFree) (hroot : root.HostFree)
    (harguments : ∀ v ∈ arguments, v.HostFree) (hnew : ∀ v, new? = some v → v.HostFree)
    (hread : (engine.tokenize path).1 = .ok tree) :
    (Token.walkDepths tree ≤ engine.settings.maxDepth →
      ¬ FailsWith .resourceExhausted
        ((engine.resolve host root (.text path) new? arguments).1 world)) ∧
    Token.walkDepths tree ≤ Token.depths tree + Token.collectionDepths tree ∧
    Token.depths tree ≤ engine.settings.maxDepth ∧
    Token.collectionDepths tree ≤ Token.depths tree + 1 := by
  rw [tokenize_of_ofOptions hmade] at hread
  obtain ⟨hcontainers, hcollections⟩ := depths_of_tokenize hread
  refine ⟨?_, Token.walkDepths_le tree, hcontainers, hcollections⟩
  exact resolve_of_walkDepths_le hmade hgraph hroot harguments hnew hread

/-- An engine with another limit and nothing else. -/
theorem ofOptions_maxDepth {maxDepth : Nat} (hpos : maxDepth ≠ 0) :
    ofOptions { maxDepth? := some maxDepth } = .ok { settings := { maxDepth } } := by
  unfold ofOptions configure
  rw [reconfigure_of_merge_eq_ok (by simpa using hpos) Grammar.default_valid.merge_nothing]
  rfl

/-- A document of numbers has no functions of the host. -/
theorem hostFree_of_numbers {cell : Cell} (numbers : List Int64)
    (hcell : cell.values = numbers.map .integer) : ({ cells := #[cell] } : Graph).HostFree := by
  have hempty : ({} : Graph).HostFree := fun h v hv => nomatch hv
  refine hempty.alloc fun v hv => ?_
  rw [hcell] at hv
  obtain ⟨n, -, rfl⟩ := List.mem_map.mp hv
  trivial

/-- Brackets around a collection, next to another alternative: a container and two collections, but
the brackets are an alternative themselves, and two levels are enough. -/
theorem resolve_withinLimit_brackets :
    let engine : Engine := { settings := { maxDepth := 2 } }
    let tree := [Token.collection [.word "a",
      .container .property [.collection [.word "b", .word "c"]]]]
    let world : World Unit :=
      ⟨{ cells := #[.map (.ofList [("a", .integer 1), ("b", .integer 2), ("c", .integer 3)])] }, ()⟩
    ofOptions { maxDepth? := some 2 } = .ok engine ∧ world.graph.HostFree ∧
      (engine.tokenize "a,[b,c]").1 = .ok tree ∧ Token.walkDepths tree = 2 ∧
      ¬ FailsWith .resourceExhausted
        ((engine.resolve Host.none (.container 0) (.text "a,[b,c]") none []).1 world) := by
  intro engine tree world
  have hmade : ofOptions { maxDepth? := some 2 } = .ok engine := ofOptions_maxDepth (by decide)
  have hgraph : world.graph.HostFree := hostFree_of_numbers [1, 2, 3] rfl
  have hread : (engine.tokenize "a,[b,c]").1 = .ok tree := by
    rw [tokenize_fst (recalls_of_empty rfl _)]
    cbv
  have hdepth : Token.walkDepths tree = 2 := by decide
  have hroot : (Value.container 0).HostFree := trivial
  have harguments : ∀ v ∈ ([] : List Value), v.HostFree := fun v hv => absurd hv List.not_mem_nil
  have hnew : ∀ v, (none : Option Value) = some v → v.HostFree := by
    intro v hv
    cases hv
  exact ⟨hmade, hgraph, hread, hdepth,
    (resolve_withinLimit hmade hgraph hroot harguments hnew hread).1 (Nat.le_of_eq hdepth)⟩

/-- Under a limit of one the same path is read, since containers nest one deep, and cannot be
resolved. -/
theorem collection_in_brackets_is_too_deep :
    let engine : Engine := { settings := { maxDepth := 1 } }
    let tree := [Token.collection [.word "a",
      .container .property [.collection [.word "b", .word "c"]]]]
    let world : World Unit :=
      ⟨{ cells := #[.map (.ofList [("a", .integer 1), ("b", .integer 2), ("c", .integer 3)])] }, ()⟩
    ofOptions { maxDepth? := some 1 } = .ok engine ∧ world.graph.HostFree ∧
      (engine.tokenize "a,[b,c]").1 = .ok tree ∧ Token.depths tree = 1 ∧
      FailsWith .resourceExhausted
        ((engine.resolve Host.none (.container 0) (.text "a,[b,c]") none []).1 world) := by
  intro engine tree world
  have hgraph : world.graph.HostFree := hostFree_of_numbers [1, 2, 3] rfl
  have hread : Grammar.default.tokenize 1 "a,[b,c]" = .ok tree := by cbv
  have hrecalls : engine.Recalls "a,[b,c]" := recalls_of_empty rfl _
  refine ⟨ofOptions_maxDepth (by decide), hgraph, (tokenize_fst hrecalls).trans hread, rfl,
    .tooDeep 1, world, ?_, rfl⟩
  rw [resolve_text_of_needsTokenizer _ _ _ _ (by decide) hrecalls, resolveByTokens_of_ok hread]
  rfl

/-! ## Paths that are never too deep -/

/-- **A path without collections is never too deep for a resolution.** -/
theorem resolve_without_collections (hmade : ofOptions options = .ok engine)
    (hgraph : world.graph.HostFree) (hroot : root.HostFree)
    (harguments : ∀ v ∈ arguments, v.HostFree) (hnew : ∀ v, new? = some v → v.HostFree)
    (hread : (engine.tokenize path).1 = .ok tree) (hnone : Token.collectionDepths tree = 0) :
    ¬ FailsWith .resourceExhausted
      ((engine.resolve host root (.text path) new? arguments).1 world) := by
  rw [tokenize_of_ofOptions hmade] at hread
  have hcontainers := (depths_of_tokenize hread).1
  have hwalks := Token.walkDepths_le tree
  apply resolve_of_walkDepths_le hmade hgraph hroot harguments hnew hread
  omega

/-- **A path that is read under a limit is never too deep for a resolution under twice the limit and
one more**, with the same options otherwise. -/
theorem resolve_under_double {n m : Nat} {engine' : Engine}
    (hmade : ofOptions { options with maxDepth? := some n } = .ok engine)
    (hmade' : ofOptions { options with maxDepth? := some m } = .ok engine') (hle : 2 * n + 1 ≤ m)
    (hgraph : world.graph.HostFree) (hroot : root.HostFree)
    (harguments : ∀ v ∈ arguments, v.HostFree) (hnew : ∀ v, new? = some v → v.HostFree)
    (hread : (engine.tokenize path).1 = .ok tree) :
    ¬ FailsWith .resourceExhausted
      ((engine'.resolve host root (.text path) new? arguments).1 world) := by
  rw [tokenize_of_ofOptions hmade] at hread
  obtain ⟨-, grammar, hmerge, hengine⟩ := configure_eq_ok hmade
  obtain ⟨-, grammar', hmerge', hengine'⟩ := configure_eq_ok hmade'
  have hsame : engine'.grammar = engine.grammar := by
    rw [hengine, hengine']
    exact Except.ok.inj (hmerge'.symm.trans hmerge)
  have hn : engine.settings.maxDepth = n := by
    rw [hengine]
    rfl
  have hm : engine'.settings.maxDepth = m := by
    rw [hengine']
    rfl
  rw [hn] at hread
  have hlimit : n ≤ m := by omega
  have huncut : engine.grammar.tokenize n path ≠ .error (.tooDeep n) := by
    rw [hread]
    exact nofun
  have hread' : engine'.grammar.tokenize engine'.settings.maxDepth path = .ok tree := by
    rw [hsame, hm, Grammar.tokenize_of_le hlimit huncut, hread]
  obtain ⟨hcontainers, hcollections⟩ := depths_of_tokenize hread
  have hwalks := Token.walkDepths_le tree
  apply resolve_of_walkDepths_le hmade' hgraph hroot harguments hnew hread'
  omega

end Engine

end GraphPath
