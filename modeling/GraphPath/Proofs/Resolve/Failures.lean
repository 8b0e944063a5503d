import GraphPath.Proofs.Resolve.Congruence

/-! # How a resolution may fail

A token tree is resolved without looking at any path text, so there is nothing in it
that could be malformed, and no request to reject.  What goes wrong is a step that
cannot be taken, a call that cannot be made, or a walk that is nested too deeply; every
other error is one of the host's (`resolveTokens_failsOnly`).
-/

namespace GraphPath

/-- Whatever error a computation fails with is one of `E`. -/
def Resolve.FailsOnly {ε α : Type} (E : PathError → Prop) (x : Resolve ε α) : Prop :=
  ∀ world e after, x world = .error e after → E e

namespace Resolve.FailsOnly
variable {ε α β : Type} {E : PathError → Prop}

theorem pure (a : α) : FailsOnly E (Pure.pure a : Resolve ε α) := fun _ _ _ h => by cases h

theorem throw {e : PathError} (he : E e) : FailsOnly E (MonadExcept.throw e : Resolve ε α) :=
  fun _ _ _ h => by
    cases h
    exact he

theorem bind {x : Resolve ε α} {f : α → Resolve ε β} (hx : FailsOnly E x)
    (hf : ∀ a, FailsOnly E (f a)) : FailsOnly E (x >>= f) := by
  intro world e after h
  cases hrun : x world with
  | ok a world₁ =>
    rw [bind_of_ok hrun] at h
    exact hf a world₁ e after h
  | error e' world₁ =>
    rw [bind_of_error hrun] at h
    cases h
    exact hx world e _ hrun

/-- An edit fails for a reason of its own, at the step where it is made. -/
theorem run (hE : ∀ failure, E (.unresolved failure)) (edit : Edit α) :
    FailsOnly E (edit.run : Resolve ε α) := by
  intro world e after h
  unfold Edit.run at h
  split at h
  · cases h
  · cases h
    exact hE _

end Resolve.FailsOnly

section
variable {ε : Type} {host : Host ε} {setup : Setup} {E : PathError → Prop}

theorem failsOnly_congruence (hE : ∀ e : PathError, e.OfWalk → E e) :
    Congruence fun _ (x _ : Resolve ε _) => Resolve.FailsOnly E x where
  pure := .pure
  throw he := .throw (hE _ he)
  bind := .bind
  run := .run fun _ => hE _ trivial

/-- **A token tree is resolved, or it fails with an error of walking or one of the host's.** -/
theorem resolveTokens_failsOnly (hE : ∀ e : PathError, e.OfWalk → E e)
    (hhost : ∀ f receiver arguments, Resolve.FailsOnly E (host f receiver arguments)) (root : Value)
    (tokens : List Token) (new? : Option Value) :
    Resolve.FailsOnly E (resolveTokens host setup root tokens new?) :=
  Congruence.resolveTokens host host (failsOnly_congruence hE) hhost root tokens new?

end

end GraphPath
