import GraphPath.Proofs.Resolve.PathText
import GraphPath.Proofs.Resolve.Success

/-! # Watching a write

Some properties of a write are about what it does along its whole way: which keys it
asks for, which values it writes into.  A `Watch` says what is to hold at every step
(`Watch.Way`): at those on the way, and at the last one, which writes.  Where the last
step is a collection or a bracket, there are steps inside it that write, and the watch
goes on with them; it knows whether an alternative before has written already.

Like the walk itself, `Watch.Way` goes by recursion on the tokens, and each step is
looked at in the world that the steps before it have left.
-/

namespace GraphPath

/-- **What is to hold at the steps of a write.** -/
structure Watch (ε : Type) where
  /-- At a step on the way. -/
  way : Trail → Nat → World ε → Token → Prop
  /-- At a step that writes, and has been written before or not. -/
  last : Bool → Trail → Nat → World ε → Token → Prop

namespace Watch
variable {ε : Type} (watch : Watch ε) (host : Host ε) (setup : Setup) (v : Value)

mutual

/-- It holds at the last step of a write, and at all steps inside it. -/
def Last (later : Bool) (trail : Trail) (level : Nat) (world : World ε) : Token → Prop
  | .word key => watch.last later trail level world (.word key)
  | .modified text modifiers => watch.last later trail level world (.modified text modifiers)
  | .collection members => Alternatives later trail level world members
  | .container .call tree => watch.last later trail level world (.container .call tree)
  | .container .evalProperty tree =>
    watch.last later trail level world (.container .evalProperty tree)
  | .container .property tree | .container .quote tree =>
    Way later trail (level + 1) world tree

/-- It holds at alternatives, one after the other. -/
def Alternatives (later : Bool) (trail : Trail) (level : Nat) (world : World ε) :
    List Token → Prop
  | [] => True
  | member :: rest => Last later trail (alternativeLevel level member) world member ∧
    ∀ result world₁,
      alternative host setup trail (some v) level member world = .ok result world₁ →
        Alternatives true trail level world₁ rest

/-- **It holds along a write.** -/
def Way (later : Bool) (trail : Trail) (level : Nat) (world : World ε) : List Token → Prop
  | [] => True
  | token :: rest => (rest = [] → Last later trail level world token) ∧
    (rest ≠ [] → watch.way trail level world token ∧ ∀ result trail₁ world₁,
      step host setup trail none setup.autoVivify level token world = .ok (result, trail₁) world₁ →
        Way later (trail₁.push result) level world₁ rest)

end

end Watch

/-! ## Writes along paths -/

/-- The steps of a path, as tokens. -/
def Route.steps (separator : Char) : Route → List Token
  | .flat text => ((Flat.segments separator text.toList).map String.ofList).map .word
  | .tree tokens => tokens

namespace Engine
variable {ε : Type} (engine : Engine) (host : Host ε) (watch : Watch ε) (root v : Value)
  (path : Path) (arguments : List Value) (world : World ε)

/-- **It holds along the write of a value at a path**, if the path can be read. -/
def Watches : Prop := ∀ route, (engine.route path).1 = .ok route →
  watch.Way host (engine.setup arguments) v false ⟨root, []⟩ 0 world
    (route.steps engine.grammar.propertySeparator)

variable {engine host root path arguments world}

/-- A path is followed as it is read, whatever has been remembered meanwhile. -/
theorem resolve_fst (new? : Option Value) :
    (engine.resolve host root path new? arguments).1 = match (engine.route path).1 with
      | .error e => throw e
      | .ok route => engine.follow host root new? arguments route := by
  have hengine : ∃ cache, (engine.route path).2 = { engine with cache } := by
    cases path with
    | tokens tokens => exact ⟨_, rfl⟩
    | text text =>
      unfold route
      dsimp only
      split
      · exact engine.tokenize_snd text
      · exact ⟨_, rfl⟩
  obtain ⟨cache, hengine⟩ := hengine
  have hfollow : ∀ route, (engine.route path).2.follow host root new? arguments route =
      engine.follow host root new? arguments route := by
    rw [hengine]
    exact fun route => by cases route <;> rfl
  unfold resolve
  cases hroute : (engine.route path).1 with
  | error e => simp only [hroute]
  | ok route => simp only [hroute, hfollow]

/-- **A path that can be followed is a walk along its steps.** -/
theorem walkFrom_of_follow {new? : Option Value} {route : Route} {w : Value} {world' : World ε}
    (h : engine.follow host root new? arguments route world = .ok w world') :
    walkFrom host (engine.setup arguments) ⟨root, []⟩ new? 0
      (route.steps engine.grammar.propertySeparator) world = .ok w world' := by
  cases route with
  | tree tokens =>
    obtain ⟨⟨⟩, world₁, henter, hwalk⟩ := exists_of_bind_ok h
    rwa [enter_eq_ok henter] at hwalk
  | flat text =>
    rw [follow, resolveFlat] at h
    rw [Route.steps, walkFrom_words]
    generalize Flat.emptyAt? 0 (Flat.segments engine.grammar.propertySeparator text.toList) =
      empty? at h
    cases empty? with
    | some position => cases h
    | none => exact h

end Engine

end GraphPath
