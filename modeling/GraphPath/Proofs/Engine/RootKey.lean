import GraphPath.Proofs.Grammar.Coherent
import GraphPath.Proofs.Resolve.ModifiedKey
import GraphPath.Proofs.Resolve.PathText

/-! # An escaped key behind a modifier

An escaped key is read as one word, with or without a modifier in front of it
(`Grammar.Valid.tokenize_modified`).  A plain word says by itself that it is literal, and
stays so.  A modified word does not: whether its wildcards were escaped is not kept in the
token, and so a word that is not found is taken for a pattern even if all of it was escaped.

**From the root, an escaped key is literal except where it is missing and has a wildcard in
it** (`Engine.resolve_escaped_from_root`).  There it reads all that it admits as a pattern, and
writes to all of it.
-/

namespace GraphPath

/-! ## Reading the text -/

/-- The word at hand behind a modifier, at the end of the text. -/
theorem Draft.finish_modified {modifier : Modifier} {word : List Char} (hword : word ≠ []) :
    Draft.finish { modifiers := .single modifier, word, filled := true } =
      .ok [.modified (String.ofList word) (.single modifier)] := by
  have hempty : word.isEmpty = false := List.isEmpty_eq_false_iff.mpr hword
  have hmodified : (Modifiers.single modifier).isEmpty = false := Modifiers.isEmpty_add {} modifier
  simp [finish, takeWord, wordToken, hempty, hmodified, file, closeCollection]

namespace Grammar
variable {g : Grammar} {c : Char} {modifier : Modifier} {key path : String}

/-- **An escaped key behind a modifier is read as the key itself, modified.** -/
theorem Valid.tokenize_modified (hg : g.Valid) (hc : g.modifier? c = some modifier)
    (hkey : key ≠ "") (hpath : path.toList = c :: g.escapeChars key.toList) (maxDepth : Nat) :
    g.tokenize maxDepth path = .ok [.modified key (.single modifier)] := by
  have hescape : c ≠ escapeChar := hg.ne_escapeChar (mem_roleChars_of_modifier? hc)
  have hword : key.toList ≠ [] := mt String.toList_eq_nil_iff.mp hkey
  have hstrip : g.stripChars path.toList = c :: g.escapeChars key.toList := by
    have hrest := hg.stripChars_escapeChars_append key.toList []
    rw [stripChars_nil, List.append_nil] at hrest
    rw [hpath, stripChars_cons_of_ne hescape, hrest]
  have hdraft : Draft.pushAll { modifiers := .single modifier } key.toList =
      { modifiers := .single modifier, word := key.toList, filled := true } :=
    Draft.pushAll_eq hword
  have hscan (size : Nat) : g.scan maxDepth 0 size { modifiers := .single modifier }
      (g.escapeChars key.toList) = .ok [.modified key (.single modifier)] := by
    rw [← List.append_nil (g.escapeChars _), hg.scan_escapeChars, hdraft, scan_nil,
      Draft.finish_modified hword, String.ofList_toList]
    rfl
  rw [tokenize_eq_scan, hstrip,
    scan_step (by simp) (by simp) (lexeme_of_modifier? hescape hc _)]
  exact hscan _

/-- A modifier sends a path through the tokenizer. -/
theorem Valid.needsTokenizer_of_modifier (hg : g.Valid) (hc : g.modifier? c = some modifier)
    (hpath : c ∈ path.toList) : g.needsTokenizer path = true :=
  (hg.needsTokenizer_iff path).mpr ⟨c, hpath,
    isSpecial_of_mem_roleChars (mem_roleChars_of_modifier? hc),
    Or.inr (Or.inl (hc ▸ Option.isSome_some))⟩

end Grammar

/-! ## Resolving from the root -/

section
variable {ε : Type} {host : Host ε} {setup : Setup} {root : Value} {key : String}

/-- A step by a key behind the root modifier is a step by the modified key of the root. -/
theorem Step.byModified_root (setup : Setup) (trail : Trail) (key : String)
    (new? : Option Value) :
    byModified setup trail key (.single .root) new? = (do
      let result ← byModifiedKey trail.root key new?
      pure (result, trail.restart)) := by
  have hselect : trail.select (.single .root) = .ok (trail.root, trail.restart) := by
    unfold Trail.select
    rw [show (Modifiers.single .root).parent = 0 from rfl, trail.back?_zero]
    exact if_pos Nat.zero_lt_one
  have hkey (g : Graph) : setup.finalKey g key (.single .root) = .ok key := if_neg (by decide)
  rw [byModified_eq, hselect]
  simp only [hkey, Edit.askFor_ok, pure_bind]
  exact congrArg (· >>= _) (if_neg (by decide))

/-- A path of nothing but such a key. -/
theorem resolveTokens_from_root (new? : Option Value) :
    resolveTokens host setup root [.modified key (.single .root)] new? =
      (Step.byModifiedKey root key new?).run := by
  have hwalk : walkFrom host setup ⟨root, []⟩ new? 0 [.modified key (.single .root)] = (do
      let result ← step host setup ⟨root, []⟩ new? false 0 (.modified key (.single .root))
      pure result.1) := by
    cases new? with
    | none => exact walkFrom_singleton _ _ _
    | some v => exact walkFrom_last _ _ _ _
  rw [resolveTokens_of_ne_nil (List.cons_ne_nil _ _), hwalk, step, Step.byModified_root,
    Edit.run_bind]
  simp only [Edit.run_pure, bind_assoc, pure_bind, bind_pure]

end

namespace Engine
variable {ε : Type} {engine : Engine} {world : World ε} {h : Handle} {key : String}

/-- So it is for an engine under the default grammar, if the key is escaped. -/
theorem resolve_escaped (hgrammar : engine.grammar = .default)
    (hrecalls : engine.Recalls ("~" ++ engine.escape key)) (hkey : key ≠ "") (host : Host ε)
    (root : Value) (new? : Option Value) (arguments : List Value) :
    (engine.resolve host root (.text ("~" ++ engine.escape key)) new? arguments).1 =
      (Step.byModifiedKey root key new?).run := by
  have hvalid : engine.grammar.Valid := hgrammar ▸ Grammar.default_valid
  have hroot : engine.grammar.modifier? '~' = some .root := by
    rw [hgrammar]
    decide
  have hpath : ("~" ++ engine.escape key).toList =
      '~' :: engine.grammar.escapeChars key.toList := by
    simp [escape, Grammar.escape]
  have hneeds : engine.grammar.needsTokenizer ("~" ++ engine.escape key) = true :=
    hvalid.needsTokenizer_of_modifier hroot (hpath ▸ List.mem_cons_self)
  rw [resolve_text_of_needsTokenizer host root new? arguments hneeds hrecalls,
    resolveByTokens_of_ok (hvalid.tokenize_modified hroot hkey hpath _), resolveTokens_from_root]

/-- **From the root, an escaped key is literal except where it is missing and has a wildcard in
it.**  Found, it is read and written as any key.  Missing, it is an intrinsic of the root or an
error, unless it is taken for a pattern. -/
theorem resolve_escaped_from_root (hgrammar : engine.grammar = .default)
    (hrecalls : engine.Recalls ("~" ++ engine.escape key)) (hkey : key ≠ "")
    (hroot : h < world.graph.cells.size) (host : Host ε) (arguments : List Value) :
    let root := Value.container h
    let path := Path.text ("~" ++ engine.escape key)
    let read := (engine.resolve host root path none arguments).1 world
    let write (v : Value) := (engine.resolve host root path (some v) arguments).1 world
    let noKey : PathError := .unresolved (.noKey key (world.graph.kind root))
    (∀ found, world.graph.getKey? root key = some found →
      read = .ok found world ∧ ∀ v, ∃ graph, write v = .ok v { world with graph } ∧
        world.graph.ChangesOnly h (Cell.Replaces key v) graph) ∧
    (world.graph.getKey? root key = none → Pattern.isPattern key = false →
      read = (match world.graph.intrinsic? root key with
        | some (v, graph) => .ok v { world with graph }
        | none => .error noKey world) ∧
      ∀ v, write v = .error noKey world) ∧
    (world.graph.getKey? root key = none → Pattern.isPattern key = true →
      (let admitted := (world.graph.ownKeys root).filter (Pattern.admits key)
       let listed := world.graph.newList (admitted.filterMap (world.graph.getKey? root))
       read = .ok listed.1 { world with graph := listed.2 }) ∧
      ((world.graph.read h).size ≤ Digits.limit →
        ∀ v, ∃ w graph, write v = .ok w { world with graph } ∧
          world.graph.ChangesOnly h (Cell.Overwrites (Pattern.admits key) v) graph)) := by
  intro root path read write noKey
  have hrun (new? : Option Value) : (engine.resolve host root path new? arguments).1 =
      (Step.byModifiedKey root key new?).run :=
    resolve_escaped hgrammar hrecalls hkey host root new? arguments
  have hresolve (new? : Option Value) : (engine.resolve host root path new? arguments).1 world =
      (Step.byModifiedKey root key new?).run world := by rw [hrun]
  refine ⟨fun found hfound => ⟨?_, fun v => ?_⟩, fun hmissing hplain => ⟨?_, fun v => ?_⟩,
    fun hmissing hpattern => ⟨?_, fun hsize v => ?_⟩⟩
  · exact (hresolve none).trans (Edit.run_of_ok (Step.byModifiedKey_none_of_getKey? hfound))
  · obtain ⟨graph, hwrite, hchanges⟩ := Step.byModifiedKey_some_of_getKey? hfound v
    exact ⟨graph, (hresolve (some v)).trans (Edit.run_of_ok hwrite), hchanges⟩
  · have hread : Step.byModifiedKey root key none world.graph =
        Step.missing root key world.graph := by
      rw [Step.byModifiedKey_none_of_missing hmissing, if_neg (Bool.eq_false_iff.mp hplain)]
    cases hintrinsic : world.graph.intrinsic? root key with
    | some found =>
      rw [Step.missing_eq, hintrinsic] at hread
      exact (hresolve none).trans (Edit.run_of_ok hread)
    | none =>
      rw [Step.missing_of_intrinsic?_eq_none rfl hintrinsic] at hread
      exact (hresolve none).trans (Edit.run_of_error hread)
  · have hwrite : Step.byModifiedKey root key (some v) world.graph =
        .error (.noKey key (world.graph.kind root)) world.graph := by
      rw [Step.byModifiedKey_some_of_missing hmissing, if_neg (Bool.eq_false_iff.mp hplain)]
    exact (hresolve (some v)).trans (Edit.run_of_error hwrite)
  · have hread := Step.byModifiedKey_none_of_missing hmissing
    rw [if_pos hpattern, Step.byPattern_none] at hread
    exact (hresolve none).trans (Edit.run_of_ok hread)
  · obtain ⟨w, graph, hpatternWrite, hchanges⟩ := Step.byPattern_some hroot hsize key v
    have hwrite : Step.byModifiedKey root key (some v) world.graph = .ok w graph := by
      rw [Step.byModifiedKey_some_of_missing hmissing, if_pos hpattern, hpatternWrite]
    exact ⟨w, graph, (hresolve (some v)).trans (Edit.run_of_ok hwrite), hchanges⟩

/-- An escaped wildcard behind the root modifier: the value of another key is read, and written. -/
theorem resolve_escaped_from_root_wildcard :
    let engine : Engine := {}
    let world : World Unit := ⟨{ cells := #[.map (.ofList [("ab", .integer 1)])] }, ()⟩
    engine.escape "a*" = "a\\*" ∧ world.graph.getKey? (.container 0) "a*" = none ∧
      (engine.resolve Host.none (.container 0) (.text ("~" ++ engine.escape "a*")) none []).1 world =
        .ok (.container 1) { world with graph := (world.graph.newList [.integer 1]).2 } ∧
      ∃ w graph, (engine.resolve Host.none (.container 0) (.text ("~" ++ engine.escape "a*"))
          (some .null) []).1 world = .ok w { world with graph } ∧
        (graph.read 0).entries = [("ab", .null)] := by
  intro engine world
  have hrecalls : engine.Recalls ("~" ++ engine.escape "a*") := recalls_of_empty rfl _
  have hmissing : world.graph.getKey? (.container 0) "a*" = none := rfl
  obtain ⟨-, -, hpattern⟩ := resolve_escaped_from_root rfl hrecalls (by decide)
    (show 0 < world.graph.cells.size from Nat.one_pos) Host.none []
  obtain ⟨hread, hwrite⟩ := hpattern hmissing (by decide)
  obtain ⟨w, graph, hwrite, hchanges⟩ := hwrite (by decide) .null
  refine ⟨by decide, hmissing, ?_, w, graph, hwrite, hchanges.changed⟩
  rw [hread]
  rfl

end Engine

end GraphPath
