import GraphPath.Proofs.Resolve.Success

/-! # The last step of a write

A write goes along all tokens of a path but the last, and keeps the trail that they
leave (`trailFrom`); the last token then writes (`walkFrom_concat`).

What a last step **addresses** is a value and a key of it, found out before anything is
written (`Addresses`).  A plain word addresses the value reached last, and so does a
computed key, once it has been computed; the modifiers of a word may lead to another
value of the trail.

**A write that succeeds has given the value to the key it addresses**
(`resolveTokens_write_assigns`), with one exception.  On a callable, a modified word
stands for its own text, as it does where it is an argument of a call; a write that
ends there succeeds and changes nothing.
-/

namespace GraphPath

section
variable {ε : Type} (host : Host ε) (setup : Setup)

/-- The trail left by the tokens on the way to a write. -/
def trailFrom (trail : Trail) (level : Nat) : List Token → Resolve ε Trail
  | [] => pure trail
  | token :: rest => do
    let result ← step host setup trail none setup.autoVivify level token
    trailFrom (result.2.push result.1) level rest

/-- **A write is a way and a last step.** -/
theorem walkFrom_concat (front : List Token) (last : Token) (trail : Trail) (v : Value)
    (level : Nat) :
    walkFrom host setup trail (some v) level (front ++ [last]) = (do
      let trail ← trailFrom host setup trail level front
      let result ← step host setup trail (some v) false level last
      pure result.1) := by
  induction front generalizing trail with
  | nil => rw [List.nil_append, walkFrom_last, trailFrom, pure_bind]
  | cons token rest ih =>
    have hrest : rest ++ [last] ≠ [] := List.append_ne_nil_of_right_ne_nil _ (List.cons_ne_nil _ _)
    rw [List.cons_append, walkFrom_cons_some hrest, trailFrom, bind_assoc]
    exact congrArg _ (funext fun result => ih _)

/-- **What a last step addresses**: a value, a key of it, and the world in which the two have been
found out. -/
inductive Addresses (trail : Trail) (level : Nat) (world : World ε) :
    Token → Value → String → World ε → Prop
  /-- A plain word is a key of the value reached last. -/
  | word (key : String) : Addresses trail level world (.word key) trail.current key world
  /-- A modified word is a key of the value its modifiers lead to. -/
  | modified {word key : String} {modifiers : Modifiers} {target : Value} {trail' : Trail}
      (hselect : trail.select modifiers = .ok (target, trail'))
      (hkey : setup.finalKey world.graph word modifiers = .ok key) :
      Addresses trail level world (.modified word modifiers) target key world
  /-- A computed key is a key of the value reached last, too. -/
  | computed {tree : List Token} {computed : Value} {key : String} {world' : World ε}
      (hwalk : walkFrom host setup trail none (level + 1) tree world = .ok computed world')
      (hkey : world'.graph.toKey computed = .ok key) :
      Addresses trail level world (.container .evalProperty tree) trail.current key world'

end

/-- Whether a modified word may stand for a pattern. -/
def Setup.Matches (setup : Setup) (word : String) (modifiers : Modifiers) : Prop :=
  ∃ g key, setup.finalKey g word modifiers = .ok key ∧ Pattern.isPattern key = true

/-- The tokens that address one key of one value: words that stand for no pattern, and computed
keys. -/
def Token.IsKey (setup : Setup) : Token → Prop
  | .word _ | .container .evalProperty _ => True
  | .modified text modifiers => ¬ setup.Matches text modifiers
  | _ => False

/-- **A value has been given to a key**, and is there. -/
structure World.Assigned {ε : Type} (world : World ε) (target : Value) (key : String) (v : Value)
    (world' : World ε) : Prop where
  /-- The value was given to the key. -/
  set : world.graph.setKey target key v = .ok world'.graph
  /-- It is found there. -/
  bound : world'.graph.getKey? target key = some v
  /-- Nothing was done to the host. -/
  host : world'.host = world.host

section
variable {ε : Type} {host : Host ε} {setup : Setup} {trail trail' : Trail} {level : Nat}
  {world world' : World ε} {root v w : Value} {front : List Token} {last : Token}

/-- A write that succeeds is a way that leaves a trail, and a last step. -/
theorem exists_of_resolveTokens_ok
    (h : resolveTokens host setup root (front ++ [last]) (some v) world = .ok w world') :
    ∃ trail trail' world₁, trailFrom host setup ⟨root, []⟩ 0 front world = .ok trail world₁ ∧
      step host setup trail (some v) false 0 last world₁ = .ok (w, trail') world' := by
  obtain ⟨⟨⟩, world₀, henter, h⟩ := exists_of_bind_ok h
  rw [enter_eq_ok henter, walkFrom_concat] at h
  obtain ⟨trail, world₁, htrail, h⟩ := exists_of_bind_ok h
  obtain ⟨⟨result, trail'⟩, world₂, hstep, h⟩ := exists_of_bind_ok h
  cases h
  exact ⟨trail, trail', world₁, htrail, hstep⟩

theorem World.assigned_write {h : Handle} {cell : Cell} {key : String}
    (hlt : h < world.graph.cells.size) (hset : (world.graph.read h).set key v = .ok cell) :
    world.Assigned (.container h) key v { world with graph := world.graph.write h cell } where
  set := by rw [Graph.setKey, hset]
  bound := by
    rw [Graph.getKey?, Graph.read_write_self _ hlt]
    exact Cell.get?_of_set hset
  host := rfl

/-- A step by a literal key that writes has given the value to it. -/
theorem assigned_of_byKey {target : Value} {key : String} {vivify : Bool} {graph : Graph}
    (h : Step.byKey target key (some v) vivify world.graph = .ok w graph) :
    w = v ∧ target.isContainer = true ∧ world.Assigned target key v { world with graph } := by
  obtain ⟨rfl, handle, cell, rfl, hlt, hset, rfl⟩ := Step.writeKey_eq_ok h
  exact ⟨rfl, rfl, World.assigned_write hlt hset⟩

/-- What the last step of a write has done when it has succeeded: it has given the value to the key
that it addresses, unless it is a modified word on a callable, which has done nothing. -/
theorem step_assigns (hlast : last.IsKey setup)
    (hstep : step host setup trail (some v) false level last world = .ok (w, trail') world') :
    ∃ target key world₁, Addresses host setup trail level world last target key world₁ ∧
      ((w = v ∧ target.isContainer = true ∧ world₁.Assigned target key v world') ∨
        (w = .string key ∧ target.isCallable = true ∧ world' = world₁ ∧
          ∃ word modifiers, last = .modified word modifiers)) := by
  match last, hlast with
  | .word key, _ =>
    obtain ⟨-, graph, hkey, rfl⟩ := step_word_eq_ok hstep
    exact ⟨_, key, world, .word key, Or.inl (assigned_of_byKey hkey)⟩
  | .container .evalProperty tree, _ =>
    obtain ⟨-, computed, world₁, key, graph, hwalk, htext, hkey, rfl⟩ := step_computed_eq_ok hstep
    exact ⟨_, key, world₁, .computed hwalk htext, Or.inl (assigned_of_byKey hkey)⟩
  | .modified word modifiers, hplain =>
    obtain ⟨graph, hmodified, rfl⟩ := step_modified_eq_ok hstep
    obtain ⟨target, key, hselect, hfinal, ⟨hread, -⟩ | hresult⟩ := Step.byModified_eq_ok hmodified
    · cases hread
    refine ⟨target, key, world, .modified hselect hfinal, ?_⟩
    rcases Step.byModifiedKey_some_eq_ok hresult with
      ⟨rfl, handle, cell, rfl, hlt, hset, rfl⟩ | ⟨hpattern, -⟩ | ⟨-, hcallable, rfl, rfl⟩
    · exact Or.inl ⟨rfl, rfl, World.assigned_write hlt hset⟩
    · exact absurd ⟨world.graph, key, hfinal, hpattern⟩ hplain
    · exact Or.inr ⟨rfl, hcallable, rfl, word, modifiers, rfl⟩

/-- **A write that succeeds has given the value to the key that its last step addresses**, a key of
a container; unless the last step is a modified word on a callable, and then it has changed
nothing. -/
theorem resolveTokens_write_assigns (hlast : last.IsKey setup)
    (hwrite : resolveTokens host setup root (front ++ [last]) (some v) world = .ok w world') :
    ∃ trail world₁ target key world₂,
      trailFrom host setup ⟨root, []⟩ 0 front world = .ok trail world₁ ∧
      Addresses host setup trail 0 world₁ last target key world₂ ∧
      ((w = v ∧ target.isContainer = true ∧ world₂.Assigned target key v world') ∨
        (w = .string key ∧ target.isCallable = true ∧ world' = world₂ ∧
          ∃ word modifiers, last = .modified word modifiers)) := by
  obtain ⟨trail, trail', world₁, htrail, hstep⟩ := exists_of_resolveTokens_ok hwrite
  obtain ⟨target, key, world₂, haddresses, hdone⟩ := step_assigns hlast hstep
  exact ⟨trail, world₁, target, key, world₂, htrail, haddresses, hdone⟩

end

/-- A write at a key that is computed from the root, in a map made on the way. -/
theorem resolveTokens_write_assigns_computed :
    let world : World Unit := ⟨{ cells := #[.map (.ofList [("key", .string "slot")])] }, ()⟩
    let setup : Setup := { autoVivify := true, maxDepth := 256 }
    let last : Token := .container .evalProperty [.modified "key" { root := 1 }]
    last.IsKey setup ∧ ∃ world', resolveTokens Host.none setup (.container 0) ([.word "m"] ++ [last])
      (some (.boolean true)) world = .ok (.boolean true) world' ∧
      ∃ trail world₁ target key world₂,
        trailFrom Host.none setup ⟨.container 0, []⟩ 0 [.word "m"] world = .ok trail world₁ ∧
        Addresses Host.none setup trail 0 world₁ last target key world₂ ∧
        world₂.Assigned target key (.boolean true) world' := by
  intro world setup last
  obtain ⟨world', hwrite⟩ : ∃ world', resolveTokens Host.none setup (.container 0)
      ([.word "m"] ++ [last]) (some (.boolean true)) world = .ok (.boolean true) world' := ⟨_, rfl⟩
  have hlast : last.IsKey setup := trivial
  refine ⟨hlast, world', hwrite, ?_⟩
  obtain ⟨trail, world₁, target, key, world₂, htrail, haddresses, hdone⟩ :=
    resolveTokens_write_assigns hlast hwrite
  rcases hdone with ⟨-, -, hassigned⟩ | ⟨hw, -⟩
  · exact ⟨trail, world₁, target, key, world₂, htrail, haddresses, hassigned⟩
  · cases hw

/-- The exception: a write to the placeholder of an argument, behind a callable, assigns nothing. -/
example :
    let world : World Unit := ⟨{ cells := #[.map (.ofList [("f", .callable ⟨.host "f", 0⟩)])] }, ()⟩
    resolveTokens Host.none { arguments := [.string "x"], maxDepth := 256 } (.container 0)
      [.word "f", .modified "1" { placeholder := 1 }] (some (.boolean true)) world =
      .ok (.string "x") world := rfl

end GraphPath
