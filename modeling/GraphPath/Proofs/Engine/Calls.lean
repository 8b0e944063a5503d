import GraphPath.Proofs.Graph.Preserved
import GraphPath.Proofs.Resolve.PathText
import GraphPath.Proofs.Resolve.Receiver
import GraphPath.Proofs.Token.Calls

/-! # Calls with texts as arguments

The arguments of a call are resolved against the callable itself.  A callable has no keys and
no methods, so that a word stands for its own text there (`Step.byKey_callable`), and a row
of words for a row of texts (`callArguments_texts`).  More than one are put together in a list
first, and taken out of it again.

**Escaped texts arrive at a function of the host just as they are** (`Engine.resolve_call`): the
function is called once, on the value that it was found on, and what it answers is what the
path comes to.
-/

namespace GraphPath

/-! ## Words on a callable -/

/-- A callable means nothing by any key. -/
theorem Graph.intrinsic?_callable (g : Graph) (f : Callable) (name : String) :
    g.intrinsic? (.callable f) name = none := by
  unfold intrinsic?
  split
  · rfl
  · split <;> rfl

/-- A word on a callable stands for its own text. -/
theorem Step.byKey_callable (f : Callable) (text : String) (g : Graph) :
    byKey (.callable f) text none false g = .ok (.string text) g := by
  rw [byKey_of_getKey?_eq_none rfl]
  show missing (.callable f) text g = _
  rw [missing_eq, g.intrinsic?_callable]
  rfl

/-- The graph in which texts have been put together: in a new list if they are more than one. -/
def Graph.withArguments (g : Graph) : List String → Graph
  | [] | [_] => g
  | texts => (g.newList (texts.map .string)).2

/-- Nothing that was there before is changed by it. -/
theorem Graph.preservedIn_withArguments (g : Graph) (texts : List String) :
    g.PreservedIn (g.withArguments texts) := by
  match texts with
  | [] | [_] => exact .refl g
  | _ :: _ :: _ => exact g.preservedIn_newList _

section
variable {ε : Type} {host : Host ε} {setup : Setup} {trail : Trail} {level : Nat} {f : Callable}
  {world : World ε}

theorem step_word_callable (hcurrent : trail.current = .callable f) (level : Nat) (text : String) :
    step host setup trail none false level (.word text) = pure (.string text, trail) := by
  funext world
  rw [step, hcurrent, bind_of_ok (Edit.run_of_ok (Step.byKey_callable f text world.graph))]

/-- A text is spread as itself. -/
theorem spread_string (text : String) : (spread (.string text) : Resolve ε _) = pure [.string text] :=
  rfl

/-- A new list is spread as its items. -/
theorem spread_newList (world : World ε) (items : List Value) :
    let made := { world with graph := (world.graph.newList items).2 }
    spread (world.graph.newList items).1 made = .ok items made := by
  intro made
  have hread : made.graph.read world.graph.cells.size = .list items :=
    world.graph.read_alloc_self _
  have hitems : made.graph.items? (world.graph.newList items).1 = some items := by
    show made.graph.items? (.container world.graph.cells.size) = some items
    rw [Graph.items?, hread]
  have hask : Edit.ask (fun g => (g.items? (world.graph.newList items).1).getD
      [(world.graph.newList items).1]) made.graph = .ok items made.graph :=
    Edit.ask_eq_ok_iff.mpr ⟨by rw [hitems]; rfl, rfl⟩
  exact Edit.run_of_ok hask

/-- **A row of words on a callable** stands for the row of texts. -/
theorem alternatives_texts (hcurrent : trail.current = .callable f)
    (hlevel : level + 1 ≤ setup.maxDepth) (texts : List String) :
    alternatives host setup trail none level (texts.map .word) = pure (texts.map .string) := by
  induction texts with
  | nil => rw [List.map_nil, alternatives]; rfl
  | cons text rest ih =>
    have hmember : alternative host setup trail none level (.word text) =
        pure (.string text, trail) := by
      unfold alternative enterAlternative
      rw [enter_of_le (List.cons_ne_nil _ _) hlevel, pure_bind, step_word_callable hcurrent]
    rw [List.map_cons, alternatives_cons, hmember, pure_bind, spread_string, pure_bind, ih,
      pure_bind]
    rfl

/-- **Texts arrive as the arguments of a call.** -/
theorem callArguments_texts (hcurrent : trail.current = .callable f)
    (hlevel : level + 2 ≤ setup.maxDepth) (texts : List String) :
    callArguments host setup trail level (argumentTokens texts) world =
      .ok (texts.map .string) { world with graph := world.graph.withArguments texts } := by
  have henter {tokens : List Token} (hne : tokens ≠ []) :
      (enter setup tokens (level + 1) : Resolve ε Unit) = pure () :=
    enter_of_le hne (Nat.le_of_succ_le hlevel)
  match texts with
  | [] => rfl
  | [text] =>
    have hne : [Token.word text] ≠ [] := List.cons_ne_nil _ _
    show callArguments host setup trail level [.word text] world = _
    rw [callArguments, List.isEmpty_eq_false_iff.mpr hne, if_neg Bool.false_ne_true, henter hne,
      walkFrom_singleton, step_word_callable hcurrent]
    rfl
  | text :: next :: others =>
    let texts := text :: next :: others
    let tree : List Token := [.collection (texts.map .word)]
    have hne : tree ≠ [] := List.cons_ne_nil _ _
    have hstep : step host setup trail none false (level + 1) (.collection (texts.map .word)) world =
        .ok ((world.graph.newList (texts.map .string)).1, trail)
          { world with graph := (world.graph.newList (texts.map .string)).2 } := by
      rw [step, alternatives_texts hcurrent hlevel, pure_bind]
      rfl
    show callArguments host setup trail level tree world = _
    rw [callArguments, List.isEmpty_eq_false_iff.mpr hne, if_neg Bool.false_ne_true, henter hne,
      walkFrom_singleton]
    simp only [pure_bind, bind_assoc]
    rw [bind_of_ok hstep]
    exact spread_newList world (texts.map .string)

/-- A call of a function of the host with texts. -/
theorem resolveTokens_call {root : Value} {key name : String}
    (hfound : world.graph.getKey? root key = some (.callable f)) (hhost : f.behaviour = .host name)
    (hdepth : 2 ≤ setup.maxDepth) (texts : List String) :
    resolveTokens host setup root [.word key, .container .call (argumentTokens texts)] none world =
      host f root (texts.map .string)
        { world with graph := world.graph.withArguments texts } := by
  let reached : Trail := Trail.push ⟨root, []⟩ (.callable f)
  have hstep : step host setup ⟨root, []⟩ none false 0 (.word key) world =
      .ok (.callable f, ⟨root, []⟩) world := by
    rw [step]
    exact bind_of_ok (Edit.run_of_ok (Step.byKey_of_getKey? hfound false))
  have hreceiver : reached.receiver = root := Trail.receiver_push _ _
  have harguments : callArguments host setup reached 0 (argumentTokens texts) world =
      .ok (texts.map .string) { world with graph := world.graph.withArguments texts } :=
    callArguments_texts rfl hdepth texts
  rw [resolveTokens_of_ne_nil (List.cons_ne_nil _ _), walkFrom_cons_none, bind_of_ok hstep]
  show walkFrom host setup reached none 0 [.container .call (argumentTokens texts)] world = _
  rw [walkFrom_container_call rfl, hreceiver]
  show (callArguments host setup reached 0 (argumentTokens texts) >>= _) world = _
  rw [bind_of_ok harguments, call, hhost]
  simp only [walkFrom, Trail.current_push, bind_pure]

end

namespace Engine
variable {ε : Type} {engine : Engine} {world : World ε} {root : Value} {key name : String}
  {texts : List String} {f : Callable}

/-- The text of a call: an escaped key, and escaped texts as its arguments. -/
def callPath (engine : Engine) (key : String) (texts : List String) : String :=
  engine.escape key ++ "(" ++ ",".intercalate (texts.map engine.escape) ++ ")"

/-- **Escaped texts arrive at a function of the host just as they are.**  The function is called
once, on the value that it was found on, and the path comes to what it answers. -/
theorem resolve_call (hgrammar : engine.grammar = .default)
    (hrecalls : engine.Recalls (engine.callPath key texts))
    (hdepth : 2 ≤ engine.settings.maxDepth) (hkey : key ≠ "") (htexts : ∀ text ∈ texts, text ≠ "")
    (hfound : world.graph.getKey? root key = some (.callable f)) (hhost : f.behaviour = .host name)
    (host : Host ε) (arguments : List Value) :
    (engine.resolve host root (.text (engine.callPath key texts)) none arguments).1 world =
      host f root (texts.map .string)
        { world with graph := world.graph.withArguments texts } := by
  have hvalid : engine.grammar.Valid := hgrammar ▸ Grammar.default_valid
  have hopener : engine.grammar.enclosure? '(' = some ⟨')', .call⟩ := by
    rw [hgrammar]
    decide
  have hpath : (engine.callPath key texts).toList = engine.grammar.escapeChars key.toList ++
      '(' :: (engine.grammar.listed ',' (texts.map String.toList) ++ [')']) := by
    simp [callPath, escape, Grammar.escape, Grammar.listed, Function.comp_def]
  have hneeds : engine.grammar.needsTokenizer (engine.callPath key texts) = true :=
    (hvalid.needsTokenizer_iff _).mpr ⟨'(', by simp [hpath],
      Grammar.isSpecial_of_mem_roleChars (Grammar.mem_roleChars_of_enclosure? hopener).1,
      Or.inr (Or.inr (Or.inl (hopener ▸ Option.isSome_some)))⟩
  have htokens : engine.grammar.tokenize engine.settings.maxDepth (engine.callPath key texts) =
      .ok [.word key, .container .call (argumentTokens texts)] := by
    refine hvalid.tokenize_call hopener ?_ ?_ ?_ (by decide) hkey htexts hpath
      (Nat.le_of_succ_le hdepth)
    all_goals
      rw [hgrammar]
      decide
  rw [resolve_text_of_needsTokenizer host root none arguments hneeds hrecalls,
    resolveByTokens_of_ok htokens]
  exact resolveTokens_call hfound hhost hdepth texts

/-- Two texts, one of them made of characters that mean something in a call, and a host that counts
its calls and answers with the last argument. -/
theorem resolve_call_two_texts :
    let engine : Engine := {}
    let f : Callable := ⟨.host "say", 0⟩
    let graph : Graph := { cells := #[.map (.ofList [("say", .callable f)])] }
    let host : Host Nat := fun _ _ arguments world =>
      .ok (arguments.getLastD .null) { world with host := world.host + 1 }
    let world : World Nat := ⟨graph, 0⟩
    let path := engine.callPath "say" ["a", "),("]
    path = "say(a,\\)\\,\\()" ∧
      (engine.resolve host (.container 0) (.text path) none []).1 world =
        .ok (.string "),(") ⟨graph.withArguments ["a", "),("], 1⟩ := by
  intro engine f graph host world path
  have hpath : path = "say(a,\\)\\,\\()" := by decide
  have htexts : ∀ text ∈ ["a", "),("], text ≠ "" := by decide
  have hrecalls : engine.Recalls path := recalls_of_empty rfl path
  have hfound : world.graph.getKey? (.container 0) "say" = some (.callable f) := rfl
  have hcall := resolve_call rfl hrecalls (by decide) (by decide) htexts hfound rfl host []
  refine ⟨hpath, ?_⟩
  rw [show path = engine.callPath "say" ["a", "),("] from rfl, hcall]
  rfl

end Engine

end GraphPath
