import GraphPath.Proofs.Locate.Occurrences
import GraphPath.Proofs.Resolve.PathText

/-! # Resolving the paths found

A path that `Engine.find?` answers is meant to be resolved again.  It is read as
the keys of an occurrence (`Valid.tokenize_row`), and following these keys
leads down the descent of that occurrence, to a node that matches
(`Descent.follow`).

This goes wrong for one kind of key.  The empty text can be a key of a map, but
nothing is escaped in it, so that it leaves an empty segment behind, and paths
with an empty segment are malformed.  **A path found can be resolved exactly if
none of its keys is empty** (`find?_fedBack`).
-/

namespace GraphPath

/-! ## Reading along a descent -/

namespace Graph
variable {g : Graph}

/-- Reading the keys of a descent leads to its end and changes nothing. -/
theorem Descent.follow (hg : g.Indexable) (setup : Setup) {root node : Value}
    {steps : List (Handle × String)} (hd : g.Descent root steps node) :
    Flat.follow setup none root (steps.map Prod.snd) g = .ok node g := by
  induction hd with
  | stop v => rfl
  | @step h key v node steps hentry _ ih =>
    have hfound : g.getKey? (.container h) key = some v :=
      Cell.get?_of_mem_entries (Cell.nameable_of_size_le (hg h)) hentry
    rw [List.map_cons, Flat.follow_cons_of_getKey? hfound]
    exact ih

end Graph

/-! ## The paths found by an engine -/

namespace Engine
variable {ε : Type} {engine : Engine} {keys : List String}

/-- A row of keys, none of them empty, is resolved by following the keys. -/
theorem resolve_row (hgrammar : engine.grammar.Valid)
    (hmodifier : engine.grammar.propertySeparator ∉ engine.grammar.modifiers.keys)
    (hcache : engine.cache.entries = []) (hne : keys ≠ []) (hkeys : "" ∉ keys) (host : Host ε)
    (root : Value) (new? : Option Value) (arguments : List Value) (world : World ε) :
    SameOutcome True
      ((engine.resolve host root (.text (engine.grammar.pathOfKeys keys)) new? arguments).1 world)
      ((Flat.follow (engine.setup arguments) new? root keys).run world) := by
  have hpath : engine.grammar.pathOfKeys keys ≠ "" := by
    rw [ne_eq, Grammar.pathOfKeys_eq_empty_iff]
    rintro (h | rfl)
    · exact hne h
    · exact hkeys List.mem_cons_self
  have htokens : engine.grammar.tokenize (engine.setup arguments).maxDepth
      (engine.grammar.pathOfKeys keys) = .ok (keys.map .word) :=
    hgrammar.tokenize_row hmodifier hne hkeys _
  rw [← resolveTokens_words host (engine.setup arguments) hne, ← resolveByTokens_of_ok htokens]
  exact resolve_text host root new? arguments hgrammar (recalls_of_empty hcache _) hpath world

/-- **A row of keys with an empty one is no path.** -/
theorem resolve_row_of_empty (hgrammar : engine.grammar.Valid)
    (hmodifier : engine.grammar.propertySeparator ∉ engine.grammar.modifiers.keys)
    (hcache : engine.cache.entries = []) (hempty : "" ∈ keys) (host : Host ε) (root : Value)
    (new? : Option Value) (arguments : List Value) (world : World ε) :
    ∃ e, (engine.resolve host root (.text (engine.grammar.pathOfKeys keys)) new? arguments).1
      world = .error e world ∧ e.kind = .syntaxInvalid := by
  -- the empty path is split, not scanned: as tokens it would have no steps and another error
  by_cases hpath : engine.grammar.pathOfKeys keys = ""
  · rw [hpath, resolve_text_of_flat host root new? arguments rfl]
    exact ⟨_, rfl, rfl⟩
  · obtain ⟨position, fault, herror⟩ := hgrammar.tokenize_row_of_empty hmodifier hempty hpath
      (engine.setup arguments).maxDepth
    have hsame := resolve_text host root new? arguments hgrammar (recalls_of_empty hcache _)
      hpath world
    rw [resolveByTokens_of_error herror] at hsame
    exact hsame.eq_error

/-- The paths found are those of key rows at which the target occurs. -/
theorem find?_eq_some {g : Graph} {root target : Value} {mode : FindMode} {paths : List String}
    (hfind : engine.find? g root target mode = some paths) :
    ∃ found : List (List String), paths = found.map engine.grammar.pathOfKeys ∧
      ∀ keys ∈ found, g.OccursAt target root engine.settings.maxDepth keys := by
  cases mode with
  | many =>
    simp only [Engine.find?, Graph.find?] at hfind
    split at hfind
    · cases hfind
    · exact ⟨_, (Option.some.inj hfind).symm, fun keys hkeys => Graph.mem_locateAll_iff.mp hkeys⟩
  | one =>
    simp only [Engine.find?, Graph.find?] at hfind
    split at hfind
    · cases hfind
    · refine ⟨_, (Option.some.inj hfind).symm, fun keys hkeys => Graph.mem_locateAll_iff.mp ?_⟩
      rw [Option.mem_toList, Graph.locateFirst, Graph.locateFirstBelow_eq_head?] at hkeys
      exact List.mem_of_mem_head? hkeys

/-- **What becomes of a row of keys that was found** when its path is resolved again: it leads to
a node that matches if no key is empty, and is rejected as malformed if one is.  Nothing is
changed in either case. -/
structure FedBack (engine : Engine) (host : Host ε) (g : Graph) (state : ε) (root target : Value)
    (keys : List String) : Prop where
  /-- The target occurs at the end of the row. -/
  occurs : g.OccursAt target root engine.settings.maxDepth keys
  /-- Without an empty key, the path leads to a node that matches. -/
  resolved : "" ∉ keys → ∃ node,
    (engine.resolve host root (.text (engine.grammar.pathOfKeys keys)) none []).1 ⟨g, state⟩ =
      .ok node ⟨g, state⟩ ∧ g.Matches target node
  /-- With one, it is malformed. -/
  rejected : "" ∈ keys → ∃ e,
    (engine.resolve host root (.text (engine.grammar.pathOfKeys keys)) none []).1 ⟨g, state⟩ =
      .error e ⟨g, state⟩ ∧ e.kind = .syntaxInvalid

/-- **A path found can be resolved exactly if none of its keys is empty.** -/
theorem find?_fedBack (hgrammar : engine.grammar = .default) (hcache : engine.cache.entries = [])
    {g : Graph} (hg : g.Indexable) {root target : Value} {mode : FindMode} {paths : List String}
    (hfind : engine.find? g root target mode = some paths) (host : Host ε) (state : ε) :
    ∃ found : List (List String), paths = found.map engine.grammar.pathOfKeys ∧
      ∀ keys ∈ found, engine.FedBack host g state root target keys := by
  have hvalid : engine.grammar.Valid := hgrammar ▸ Grammar.default_valid
  have hmodifier : engine.grammar.propertySeparator ∉ engine.grammar.modifiers.keys := by
    rw [hgrammar]
    decide
  obtain ⟨found, hpaths, hoccurs⟩ := find?_eq_some hfind
  refine ⟨found, hpaths, fun keys hkeys => ⟨hoccurs keys hkeys, fun hnone => ?_, fun hempty => ?_⟩⟩
  · obtain ⟨steps, node, ho, rfl⟩ := hoccurs keys hkeys
    have hne : steps.map Prod.snd ≠ [] := by simpa using ho.nonempty
    have hsame := resolve_row hvalid hmodifier hcache hne hnone host root none [] ⟨g, state⟩
    have hfollow : (Flat.follow (engine.setup []) none root (steps.map Prod.snd)).run ⟨g, state⟩ =
        .ok node ⟨g, state⟩ := by
      rw [Edit.run, ho.descent.follow hg]
    rw [hfollow] at hsame
    exact ⟨node, hsame.eq_ok, ho.hit⟩
  · exact resolve_row_of_empty hvalid hmodifier hcache hempty host root none [] ⟨g, state⟩

/-- A map with an empty key and a key of special characters: both paths are found, and the first
of them is malformed. -/
theorem find?_fedBack_empty_key :
    let engine : Engine := {}
    let g : Graph := { cells := #[.map (.ofList [("", .integer 1), ("a*", .integer 1)])] }
    engine.find? g (.container 0) (.integer 1) .many = some ["", "a\\*"] ∧
      (∃ found : List (List String), ["", "a\\*"] = found.map engine.grammar.pathOfKeys ∧
        ∀ keys ∈ found, engine.FedBack Host.none g () (.container 0) (.integer 1) keys) ∧
      (engine.resolve (ε := Unit) Host.none (.container 0) (.text "") none []).1 ⟨g, ()⟩ =
        .error (.malformed 0 .emptySegment) ⟨g, ()⟩ := by
  have hall : Graph.locateAll { cells := #[.map (.ofList [("", .integer 1), ("a*", .integer 1)])] }
      (.integer 1) ({} : Engine).settings.maxDepth (.container 0) = [[""], ["a*"]] := by
    rw [Graph.locateAll]
    exact (Graph.locateBelow_container _ _ _).trans rfl
  have hfind : ({} : Engine).find?
      { cells := #[.map (.ofList [("", .integer 1), ("a*", .integer 1)])] } (.container 0)
      (.integer 1) .many = some ["", "a\\*"] := by
    simp only [find?, Graph.find?, hall]
    decide
  refine ⟨hfind, find?_fedBack rfl rfl ?_ hfind Host.none (), rfl⟩
  intro h
  cases h with
  | zero => decide
  | succ h => exact Nat.zero_le _

end Engine

end GraphPath
