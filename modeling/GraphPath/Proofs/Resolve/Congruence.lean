import GraphPath.Engine
import GraphPath.Proofs.Resolve.Success

/-! # What holds of every resolution

Steps and walks are made of a few things: they answer, they fail, they edit the graph,
they call functions of the host, and they do one of these behind the other.  So whatever
relates two computations, or holds of one, and is kept by all of these, also relates whole
resolutions whose hosts are related (`Congruence.resolveTokens`, `Congruence.resolve`), and
even under two limits of depth (`Congruence.resolveTokens_of_alike`).  The recursion over the
tokens is done here once, and nothing has to be said about single steps by those who use it.
-/

namespace GraphPath

/-- The errors that come up in walking through a document. -/
def PathError.OfWalk : PathError → Prop
  | .unresolved _ | .uncallable _ | .tooDeep _ => True
  | .malformed _ _ | .config _ => False

/-- **A relation between computations that is kept** by everything that steps are made of, but for
calls of host functions. -/
structure Congruence {ε ε' : Type} (Φ : ∀ α : Type, Resolve ε α → Resolve ε' α → Prop) : Prop where
  /-- Answering. -/
  pure : ∀ {α : Type} (a : α), Φ α (Pure.pure a) (Pure.pure a)
  /-- Failing on the way. -/
  throw : ∀ {α : Type} {e : PathError}, e.OfWalk → Φ α (MonadExcept.throw e) (MonadExcept.throw e)
  /-- One thing behind the other. -/
  bind : ∀ {α β : Type} {x : Resolve ε α} {y : Resolve ε' α} {f : α → Resolve ε β}
    {f' : α → Resolve ε' β}, Φ α x y → (∀ a, Φ β (f a) (f' a)) → Φ β (x >>= f) (y >>= f')
  /-- Editing the graph. -/
  run : ∀ {α : Type} (edit : Edit α), Φ α edit.run edit.run

namespace Congruence
variable {ε ε' : Type} {Φ : ∀ α : Type, Resolve ε α → Resolve ε' α → Prop} {host : Host ε}
  {host' : Host ε'} {setup : Setup}

theorem enter (hΦ : Congruence Φ) (tokens : List Token) (level : Nat) :
    Φ Unit (GraphPath.enter setup tokens level) (GraphPath.enter setup tokens level) := by
  unfold GraphPath.enter
  split
  · exact hΦ.throw trivial
  · split
    · exact hΦ.throw trivial
    · exact hΦ.pure ()

theorem spread (hΦ : Congruence Φ) (v : Value) :
    Φ (List Value) (GraphPath.spread v) (GraphPath.spread v) := hΦ.run _

/-- **Two resolutions with parts that are alike**, by two hosts and under two limits. -/
structure Alike (Φ : ∀ α : Type, Resolve ε α → Resolve ε' α → Prop) (host : Host ε)
    (host' : Host ε') (setup : Setup) (maxDepth : Nat) : Prop where
  /-- Entering a level. -/
  enter : ∀ tokens level, Φ Unit (GraphPath.enter setup tokens level)
    (GraphPath.enter { setup with maxDepth } tokens level)
  /-- Calling a function of the host. -/
  call : ∀ f receiver arguments, Φ Value (host f receiver arguments) (host' f receiver arguments)

section
variable {maxDepth : Nat}

theorem call (hΦ : Congruence Φ) (h : Alike Φ host host' setup maxDepth) (f : Callable)
    (receiver : Value) (arguments : List Value) :
    Φ Value (GraphPath.call host f receiver arguments)
      (GraphPath.call host' f receiver arguments) := by
  unfold GraphPath.call
  split
  · exact hΦ.run _
  · exact h.call f receiver arguments

theorem enterAlternative (hΦ : Congruence Φ) (h : Alike Φ host host' setup maxDepth) (level : Nat)
    (member : Token) :
    Φ Unit (GraphPath.enterAlternative setup level member)
      (GraphPath.enterAlternative { setup with maxDepth } level member) := by
  rcases enterAlternative_cases member with ⟨-, henter⟩ | ⟨-, henter⟩
  · rw [henter, henter]
    exact h.enter _ _
  · rw [henter, henter]
    exact hΦ.pure ()

mutual

theorem step (hΦ : Congruence Φ) (h : Alike Φ host host' setup maxDepth)
    (trail : Trail) (new? : Option Value) (vivify : Bool) (level : Nat) (token : Token) :
    Φ (Value × Trail) (GraphPath.step host setup trail new? vivify level token)
      (GraphPath.step host' { setup with maxDepth } trail new? vivify level token) := by
  match token with
  | .word key =>
    rw [GraphPath.step, GraphPath.step]
    exact hΦ.bind (hΦ.run _) fun _ => hΦ.pure _
  | .modified word modifiers =>
    rw [GraphPath.step, GraphPath.step]
    exact hΦ.run _
  | .collection members =>
    rw [GraphPath.step, GraphPath.step]
    exact hΦ.bind (hΦ.alternatives h trail new? level members) fun _ =>
      hΦ.bind (hΦ.run _) fun _ => hΦ.pure _
  | .container .call tree =>
    cases new? with
    | some v =>
      rw [step_call_some, step_call_some]
      exact hΦ.throw trivial
    | none =>
      by_cases hcallable : ∃ f, trail.current = .callable f
      · obtain ⟨f, hcurrent⟩ := hcallable
        rw [step_call_callable hcurrent, step_call_callable hcurrent, callArguments, callArguments]
        refine hΦ.bind ?_ fun arguments =>
          hΦ.bind (hΦ.call h f trail.receiver arguments) fun _ => hΦ.pure _
        split
        · exact hΦ.pure _
        · exact hΦ.bind (h.enter tree _) fun _ =>
            hΦ.bind (hΦ.walkFrom h trail none _ tree) fun _ => hΦ.spread _
      · rw [step_call_of_not_callable (not_exists.mp hcallable),
          step_call_of_not_callable (not_exists.mp hcallable)]
        exact hΦ.bind (hΦ.run _) fun _ => hΦ.throw trivial
  | .container .evalProperty tree =>
    rw [GraphPath.step, GraphPath.step]
    exact hΦ.bind (h.enter tree _) fun _ =>
      hΦ.bind (hΦ.walkFrom h trail none _ tree) fun _ =>
        hΦ.bind (hΦ.run _) fun _ => hΦ.bind (hΦ.run _) fun _ => hΦ.pure _
  | .container .property tree | .container .quote tree =>
    rw [step_path_eq (by exact trivial), step_path_eq (by exact trivial)]
    exact hΦ.bind (h.enter tree _) fun _ =>
      hΦ.bind (hΦ.walkFrom h trail new? _ tree) fun _ => hΦ.pure _

theorem alternatives (hΦ : Congruence Φ) (h : Alike Φ host host' setup maxDepth)
    (trail : Trail) (new? : Option Value) (level : Nat) (members : List Token) :
    Φ (List Value) (GraphPath.alternatives host setup trail new? level members)
      (GraphPath.alternatives host' { setup with maxDepth } trail new? level members) := by
  match members with
  | [] =>
    rw [GraphPath.alternatives, GraphPath.alternatives]
    exact hΦ.pure _
  | member :: rest =>
    rw [alternatives_cons, alternatives_cons, alternative, alternative, bind_assoc, bind_assoc]
    exact hΦ.bind (hΦ.enterAlternative h level member) fun _ =>
      hΦ.bind (hΦ.step h trail new? false _ member) fun _ =>
        hΦ.bind (hΦ.spread _) fun _ =>
          hΦ.bind (hΦ.alternatives h trail new? level rest) fun _ => hΦ.pure _

theorem walkFrom (hΦ : Congruence Φ) (h : Alike Φ host host' setup maxDepth)
    (trail : Trail) (new? : Option Value) (level : Nat) (tokens : List Token) :
    Φ Value (GraphPath.walkFrom host setup trail new? level tokens)
      (GraphPath.walkFrom host' { setup with maxDepth } trail new? level tokens) := by
  match tokens with
  | [] =>
    rw [GraphPath.walkFrom, GraphPath.walkFrom]
    exact hΦ.pure _
  | token :: rest =>
    rw [GraphPath.walkFrom, GraphPath.walkFrom]
    exact hΦ.bind (hΦ.step h trail _ _ level token) fun _ =>
      hΦ.walkFrom h _ new? level rest

end

/-- **Token trees are resolved alike** if their parts are alike. -/
theorem resolveTokens_of_alike (hΦ : Congruence Φ) (h : Alike Φ host host' setup maxDepth)
    (root : Value) (tokens : List Token) (new? : Option Value) :
    Φ Value (GraphPath.resolveTokens host setup root tokens new?)
      (GraphPath.resolveTokens host' { setup with maxDepth } root tokens new?) :=
  hΦ.bind (h.enter tokens 0) fun _ => hΦ.walkFrom h _ new? 0 tokens

end

variable (host host') (hΦ : Congruence Φ)
  (hhost : ∀ f receiver arguments, Φ Value (host f receiver arguments) (host' f receiver arguments))
include hΦ hhost

/-- **Token trees are resolved alike** by hosts whose functions are alike. -/
theorem resolveTokens (root : Value) (tokens : List Token) (new? : Option Value) :
    Φ Value (GraphPath.resolveTokens host setup root tokens new?)
      (GraphPath.resolveTokens host' setup root tokens new?) :=
  hΦ.resolveTokens_of_alike ⟨hΦ.enter, hhost⟩ root tokens new?

/-- So are paths of any other kind, if nothing depends on the error with which a path is
malformed. -/
theorem resolve (hthrow : ∀ e : PathError, Φ Value (MonadExcept.throw e) (MonadExcept.throw e))
    (engine : Engine) (root : Value) (path : Path) (new? : Option Value) (arguments : List Value) :
    Φ Value (engine.resolve host root path new? arguments).1
      (engine.resolve host' root path new? arguments).1 := by
  unfold Engine.resolve
  dsimp only
  split
  · exact hthrow _
  · unfold Engine.follow
    split
    · unfold resolveFlat
      dsimp only
      split
      · exact hthrow _
      · exact hΦ.run _
    · exact resolveTokens host host' hΦ hhost root _ new?

end Congruence

end GraphPath
