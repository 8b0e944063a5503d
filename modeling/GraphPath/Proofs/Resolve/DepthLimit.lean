import GraphPath.Proofs.Resolve.Congruence
import GraphPath.Proofs.Token.DepthLimit

/-! # The depth limit only cuts off

A limit says how deep containers may nest where a text is read, and how deep walks may nest
where a path is resolved.  In both it is looked at in one place only, where a level is
entered, and it either stops everything there or does nothing.  **What does not fail for being
too deep is the same under every greater limit** (`depth_limit_cuts_off`): the tokens of a
text, or the fault in it; the result of a path, or its error, and the graph that is left.

For resolutions this is one more relation between computations that is kept by all their
parts (`cutOff_congruence`).
-/

namespace GraphPath

/-- **A computation is cut off by a limit, or does the same as another one.** -/
def Resolve.CutOff {ε α : Type} (maxDepth : Nat) (x y : Resolve ε α) : Prop :=
  ∀ world, (∃ after, x world = .error (.tooDeep maxDepth) after) ∨ y world = x world

section
variable {ε : Type} {d d' : Nat}

theorem cutOff_congruence (maxDepth : Nat) :
    Congruence fun _ (x y : Resolve ε _) => Resolve.CutOff maxDepth x y where
  pure _ := fun _ => Or.inr rfl
  throw _ := fun _ => Or.inr rfl
  run _ := fun _ => Or.inr rfl
  bind {_ _ x y f f'} hx hf := by
    intro world
    obtain ⟨after, hdeep⟩ | hsame := hx world
    · exact Or.inl ⟨after, bind_of_error hdeep⟩
    · cases h : x world with
      | ok a after =>
        rw [bind_of_ok h, bind_of_ok (hsame.trans h)]
        exact hf a after
      | error e after =>
        rw [bind_of_error h, bind_of_error (hsame.trans h)]
        exact Or.inr rfl

/-- Entering a level is where the limit cuts off. -/
theorem enter_cutOff (hle : d ≤ d') (setup : Setup) (tokens : List Token) (level : Nat) :
    Resolve.CutOff (ε := ε) d (enter { setup with maxDepth := d } tokens level)
      (enter { setup with maxDepth := d' } tokens level) := by
  intro world
  by_cases hdeep : d < level
  · refine Or.inl ⟨world, ?_⟩
    rw [enter, if_pos hdeep]
    rfl
  · refine Or.inr ?_
    rw [enter, enter, if_neg hdeep, if_neg (Nat.not_lt.mpr (Nat.le_trans (Nat.le_of_not_lt hdeep) hle))]

/-- A resolution is cut off, or does not know the limit, whatever its host does. -/
theorem resolveTokens_cutOff (hle : d ≤ d') (host : Host ε) (setup : Setup) (root : Value)
    (tokens : List Token) (new? : Option Value) :
    Resolve.CutOff d (resolveTokens host { setup with maxDepth := d } root tokens new?)
      (resolveTokens host { setup with maxDepth := d' } root tokens new?) :=
  (cutOff_congruence d).resolveTokens_of_alike
    ⟨enter_cutOff hle setup, fun _ _ _ _ => Or.inr rfl⟩ root tokens new?

end

/-- **The depth limit only cuts off.**  Under a greater limit a text is read alike, unless it was
too deep before; a text with fewer than two characters for each level is never too deep; and a path
is resolved alike, with the same world left, unless it was too deep before. -/
theorem depth_limit_cuts_off {d d' : Nat} (hle : d ≤ d') :
    (∀ (g : Grammar) (path : String), g.tokenize d path ≠ .error (.tooDeep d) →
      g.tokenize d' path = g.tokenize d path) ∧
    (∀ (g : Grammar) (path : String), path.length < 2 * (d + 1) →
      g.tokenize d path ≠ .error (.tooDeep d)) ∧
    ∀ {ε : Type} (host : Host ε) (setup : Setup) (root : Value) (tokens : List Token)
      (new? : Option Value) (world : World ε),
      (∀ after, resolveTokens host { setup with maxDepth := d } root tokens new? world ≠
        .error (.tooDeep d) after) →
      resolveTokens host { setup with maxDepth := d' } root tokens new? world =
        resolveTokens host { setup with maxDepth := d } root tokens new? world := by
  refine ⟨fun g path => g.tokenize_of_le hle, fun g path => g.tokenize_ne_tooDeep,
    fun host setup root tokens new? world hcut => ?_⟩
  exact (resolveTokens_cutOff hle host setup root tokens new? world).resolve_left
    fun ⟨after, hdeep⟩ => hcut after hdeep

/-- A text that is too short to be too deep, and a computed key, which takes one level. -/
theorem depth_limit_cuts_off_one :
    let world : World Unit :=
      ⟨{ cells := #[.map (.ofList [("k", .string "a"), ("a", .integer 1)])] }, ()⟩
    let setup (maxDepth : Nat) : Setup := { maxDepth }
    let tokens := [Token.container .evalProperty [.word "k"]]
    Grammar.default.tokenize 1 "(x)" ≠ .error (.tooDeep 1) ∧
      Grammar.default.tokenize 2 "(x)" = Grammar.default.tokenize 1 "(x)" ∧
      resolveTokens Host.none (setup 0) (.container 0) tokens none world =
        .error (.tooDeep 0) world ∧
      resolveTokens Host.none (setup 1) (.container 0) tokens none world = .ok (.integer 1) world ∧
      resolveTokens Host.none (setup 2) (.container 0) tokens none world =
        .ok (.integer 1) world := by
  intro world setup tokens
  have hresolve : resolveTokens Host.none (setup 1) (.container 0) tokens none world =
      .ok (.integer 1) world := rfl
  obtain ⟨hreads, hshort, hresolves⟩ := depth_limit_cuts_off (Nat.le_succ 1)
  have hread : Grammar.default.tokenize 1 "(x)" ≠ .error (.tooDeep 1) :=
    hshort Grammar.default "(x)" (by decide)
  refine ⟨hread, hreads Grammar.default "(x)" hread, rfl, hresolve, ?_⟩
  rw [← hresolve]
  refine hresolves Host.none (setup 1) (.container 0) tokens none world fun after hcut => ?_
  cases hresolve.symm.trans hcut

end GraphPath
