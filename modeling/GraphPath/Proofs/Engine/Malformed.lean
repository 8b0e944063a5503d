import GraphPath.Proofs.Engine.Recall
import GraphPath.Proofs.Resolve.Failures
import GraphPath.Proofs.Resolve.HostFree

/-! # Paths that are malformed

Whether a path text is well-formed is found out by reading it, and reading is also what
resolving begins with, unless the path is flat.  The two agree on every text but one.
**A path is malformed for a resolution exactly if it is for the tokenizer, or if it is
empty** (`Engine.resolve_malformed_iff`).  The empty text is read into no tokens, and yet
as a flat path it has one segment, which is empty.

This is so on documents without functions of the host.  A function of the host may fail
with any error, and so may a resolution that calls it.
-/

namespace GraphPath

/-- A run that fails with an error of a kind. -/
def FailsWith {ε α : Type} (kind : ErrorKind) (r : EStateM.Result PathError (World ε) α) : Prop :=
  ∃ e world, r = .error e world ∧ e.kind = kind

theorem SameOutcome.failsWith_iff {ε α : Type} {r r' : EStateM.Result PathError (World ε) α}
    (h : SameOutcome True r r') (kind : ErrorKind) : FailsWith kind r ↔ FailsWith kind r' := by
  unfold FailsWith
  cases h with
  | ok a world => exact Iff.rfl
  | @error e e' world h =>
    have hkind : e.kind = e'.kind := (h trivial).1
    constructor
    · rintro ⟨_, _, heq, rfl⟩
      cases heq
      exact ⟨e', world, rfl, hkind.symm⟩
    · rintro ⟨_, _, heq, rfl⟩
      cases heq
      exact ⟨e, world, rfl, hkind⟩

section
variable {ε : Type} {setup : Setup} {root : Value}

/-- A token tree is never malformed where no function of the host is called. -/
theorem not_failsWith_of_resolveTokens (tokens : List Token) (new? : Option Value)
    (world : World ε) :
    ¬ FailsWith .syntaxInvalid (resolveTokens Host.none setup root tokens new? world) := by
  have hwalk : ∀ e : PathError, e.OfWalk → e.kind ≠ .syntaxInvalid := by
    intro e he
    cases e with
    | malformed position fault => exact he.elim
    | _ => exact nofun
  have hnone (f : Callable) (receiver : Value) (arguments : List Value) :
      Resolve.FailsOnly (fun e => e.kind ≠ .syntaxInvalid)
        ((Host.none : Host ε) f receiver arguments) := .throw (hwalk _ trivial)
  rintro ⟨e, after, herror, hkind⟩
  exact resolveTokens_failsOnly hwalk hnone root tokens new? world e after herror hkind

end

namespace Engine
variable {ε : Type} {engine : Engine} {options : Options} {host : Host ε} {world : World ε}
  {root : Value} {new? : Option Value} {arguments : List Value}

/-- The empty path has an empty segment. -/
theorem resolve_empty_failsWith (engine : Engine) (host : Host ε) (root : Value)
    (new? : Option Value) (arguments : List Value) (world : World ε) :
    FailsWith .syntaxInvalid
      ((engine.resolve host root (.text "") new? arguments).1 world) := by
  have hflat : engine.grammar.needsTokenizer "" = false := rfl
  rw [resolve_text_of_flat host root new? arguments hflat]
  exact ⟨.malformed 0 .emptySegment, world, rfl, rfl⟩

/-- **A path is malformed for a resolution exactly if it is for the tokenizer, or if it is
empty.** -/
theorem resolve_malformed_iff (hmade : ofOptions options = .ok engine)
    (hgraph : world.graph.HostFree) (hroot : root.HostFree)
    (harguments : ∀ v ∈ arguments, v.HostFree) (hnew : ∀ v, new? = some v → v.HostFree)
    (path : String) :
    FailsWith .syntaxInvalid ((engine.resolve host root (.text path) new? arguments).1 world) ↔
      path = "" ∨ ∃ e, (engine.tokenize path).1 = .error e ∧ e.kind = .syntaxInvalid := by
  obtain ⟨hrun, hempty⟩ := run_configure_of_ofOptions (ε := ε) hmade
  have hvalid : engine.grammar.Valid := by
    rw [← hrun]
    exact (reachable_grammar_run _).valid
  have hrecalls := recalls_of_empty hempty path
  by_cases hne : path = ""
  · subst hne
    have hempty := resolve_empty_failsWith engine host root new? arguments world
    exact ⟨fun _ => Or.inl rfl, fun _ => hempty⟩
  rw [(resolve_text host root new? arguments hvalid hrecalls hne world).failsWith_iff,
    tokenize_fst hrecalls]
  cases htokens : engine.grammar.tokenize engine.settings.maxDepth path with
  | error e =>
    rw [resolveByTokens_of_error htokens]
    constructor
    · rintro ⟨e', after, heq, hkind⟩
      cases heq
      exact Or.inr ⟨e, rfl, hkind⟩
    · rintro (hpath | ⟨e', heq, hkind⟩)
      · exact absurd hpath hne
      · cases heq
        exact ⟨e, world, rfl, hkind⟩
  | ok tokens =>
    rw [resolveByTokens_of_ok htokens, resolveTokens_hostFree hgraph hroot harguments hnew]
    constructor
    · intro hfails
      exact absurd hfails (not_failsWith_of_resolveTokens tokens new? world)
    · rintro (hpath | ⟨e, heq, -⟩)
      · exact absurd hpath hne
      · cases heq

/-- The empty path is well-formed for the tokenizer, and malformed for a new engine on an empty
map. -/
theorem resolve_malformed_of_valid :
    let engine : Engine := {}
    let world : World Unit := ⟨{ cells := #[.map .empty] }, ()⟩
    ofOptions {} = .ok engine ∧ world.graph.HostFree ∧ (engine.tokenize "").1 = .ok [] ∧
      FailsWith .syntaxInvalid
        ((engine.resolve Host.none (.container 0) (.text "") none []).1 world) := by
  intro engine world
  have hmade : ofOptions {} = .ok engine := by
    unfold ofOptions configure
    rw [reconfigure_of_merge_eq_ok (by decide) Grammar.default_valid.merge_nothing]
    rfl
  have hgraph : world.graph.HostFree := by
    intro h v hv
    cases h <;> cases hv
  have htokens : (engine.tokenize "").1 = .ok [] := by
    rw [tokenize_fst (recalls_of_empty rfl _), Grammar.tokenize_eq_scan, String.toList_empty,
      Grammar.stripChars_nil, Grammar.scan_nil]
    rfl
  have hroot : (Value.container 0).HostFree := trivial
  have harguments : ∀ v ∈ ([] : List Value), v.HostFree := fun v hv => absurd hv List.not_mem_nil
  have hnew : ∀ v, (none : Option Value) = some v → v.HostFree := by
    intro v hv
    cases hv
  exact ⟨hmade, hgraph, htokens,
    (resolve_malformed_iff hmade hgraph hroot harguments hnew "").mpr (Or.inl rfl)⟩

end Engine

end GraphPath
