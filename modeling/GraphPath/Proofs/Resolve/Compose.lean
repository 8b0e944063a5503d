import GraphPath.Proofs.Resolve.Success

/-! # Reading one path after the other

Two rows of tokens may be read in one go, or the second one from the value that the
first one comes to.  The difference is the trail: in one go it still knows how the value
was reached.  Only parent and root modifiers look that far back, and calls, for their
receiver.  A token that has none of these at any depth is **forward**
(`Token.forward`): the value reached last is all that it needs to know
(`step_forward`), and a row of such tokens comes to the same from every trail that
ends in that value (`walkFrom_forward`).

Hence **reading is compositional** (`resolveTokens_append`): where the second row is
forward, reading both is reading the first one and then the second from its value, up to
the world that is left and the error that is reported.  Nothing is asked of the first
row.  It may call functions of the host, and these may change whatever they like.
-/

namespace GraphPath

/-! ## Forward tokens -/

mutual

/-- Whether a token goes back to no earlier value, at any depth: no parent or root modifier, and no
call. -/
def Token.forward : Token → Bool
  | .word _ => true
  | .modified _ modifiers => modifiers.parent == 0 && modifiers.root == 0
  | .collection members => Token.allForward members
  | .container .call _ => false
  | .container _ tree => Token.allForward tree

/-- Whether this is so for all of a row of tokens. -/
def Token.allForward : List Token → Bool
  | [] => true
  | token :: rest => token.forward && Token.allForward rest

end

/-- Without parent and root modifiers, a word is looked up on the value reached last. -/
theorem Trail.select_forward {modifiers : Modifiers} (hparent : modifiers.parent = 0)
    (hroot : modifiers.root = 0) (trail : Trail) :
    trail.select modifiers = .ok (trail.current, trail) := by
  rw [select, hparent, hroot, back?_zero]
  rfl

section
variable {ε : Type} {host : Host ε} {setup : Setup} {trail trail' : Trail}

theorem byModified_forward {modifiers : Modifiers} (hparent : modifiers.parent = 0)
    (hroot : modifiers.root = 0) (hsame : trail.current = trail'.current) (word : String)
    (new? : Option Value) :
    Step.byModified setup trail word modifiers new? = (do
      let result ← Step.byModified setup trail' word modifiers new?
      pure (result.1, trail)) := by
  simp only [Step.byModified_eq, Trail.select_forward hparent hroot, hsame, Edit.askFor_ok,
    pure_bind, bind_assoc]

/-! ## Steps and walks from different trails -/

mutual

/-- **A forward token takes the same step from every trail that ends in the same value**, and leaves
the trail as it is. -/
theorem step_forward {trail trail' : Trail} (hsame : trail.current = trail'.current)
    (new? : Option Value) (vivify : Bool) (level : Nat) (token : Token)
    (hforward : token.forward = true) :
    step host setup trail new? vivify level token = (do
      let result ← step host setup trail' new? vivify level token
      pure (result.1, trail)) := by
  match token with
  | .word key =>
    rw [step, step, hsame, bind_assoc]
    simp only [pure_bind]
  | .modified word modifiers =>
    rw [Token.forward, Bool.and_eq_true, beq_iff_eq, beq_iff_eq] at hforward
    rw [step, step, byModified_forward hforward.1 hforward.2 hsame, Edit.run_bind]
    rfl
  | .collection members =>
    rw [Token.forward] at hforward
    have hmembers := alternatives_forward hsame new? level members hforward
    rw [step, step, hmembers]
    simp only [bind_assoc, pure_bind]
  | .container .call tree => cases hforward
  | .container .evalProperty tree =>
    simp only [Token.forward] at hforward
    have htree := walkFrom_forward hsame none (level + 1) tree hforward
    rw [step, step, htree, hsame]
    simp only [bind_assoc, pure_bind]
  | .container .property tree | .container .quote tree =>
    simp only [Token.forward] at hforward
    have htree := walkFrom_forward hsame new? (level + 1) tree hforward
    rw [step_path_eq, step_path_eq, htree]
    · simp only [bind_assoc, pure_bind]
    all_goals exact trivial

theorem alternatives_forward {trail trail' : Trail} (hsame : trail.current = trail'.current)
    (new? : Option Value) (level : Nat) (members : List Token)
    (hforward : Token.allForward members = true) :
    alternatives host setup trail new? level members =
      alternatives host setup trail' new? level members := by
  match members with
  | [] => rw [alternatives, alternatives]
  | member :: rest =>
    rw [Token.allForward, Bool.and_eq_true] at hforward
    have hmember := step_forward hsame new? false (alternativeLevel level member) member hforward.1
    have hrest := alternatives_forward hsame new? level rest hforward.2
    -- of the step by a member only the value is used
    rw [alternatives_cons, alternatives_cons, alternative, alternative, hmember, hrest]
    simp only [bind_assoc, pure_bind]

/-- **A row of forward tokens comes to the same from every trail that ends in the same value.** -/
theorem walkFrom_forward {trail trail' : Trail} (hsame : trail.current = trail'.current)
    (new? : Option Value) (level : Nat) (tokens : List Token)
    (hforward : Token.allForward tokens = true) :
    walkFrom host setup trail new? level tokens = walkFrom host setup trail' new? level tokens := by
  match tokens with
  | [] => rw [walkFrom, walkFrom, hsame]
  | token :: rest =>
    rw [Token.allForward, Bool.and_eq_true] at hforward
    rw [walkFrom, walkFrom, step_forward hsame _ _ level token hforward.1]
    simp only [bind_assoc, pure_bind]
    refine congrArg _ (funext fun result => ?_)
    -- the trails differ again, but both end in the result of this step
    have hpushed : (trail.push result.1).current = (result.2.push result.1).current := rfl
    exact walkFrom_forward hpushed new? level rest hforward.2

end

end

/-! ## Rows of tokens, one after the other -/

section
variable {ε : Type} (host : Host ε) (setup : Setup)

theorem walkFrom_append (front rest : List Token) (hforward : Token.allForward rest = true)
    (trail : Trail) (level : Nat) :
    walkFrom host setup trail none level (front ++ rest) = (do
      let v ← walkFrom host setup trail none level front
      walkFrom host setup ⟨v, []⟩ none level rest) := by
  induction front generalizing trail with
  | nil =>
    have hsame : trail.current = (⟨trail.current, []⟩ : Trail).current := rfl
    rw [List.nil_append, walkFrom, pure_bind]
    exact walkFrom_forward hsame none level rest hforward
  | cons token front ih =>
    rw [List.cons_append, walkFrom_cons_none, walkFrom_cons_none, bind_assoc]
    exact congrArg _ (funext fun result => ih _)

/-- **Reading is compositional**: if the second of two rows of tokens is forward, reading both in
one go is reading the second from the value of the first. -/
theorem resolveTokens_append {first second : List Token} (hfirst : first ≠ [])
    (hsecond : second ≠ []) (hforward : Token.allForward second = true) (root : Value) :
    resolveTokens host setup root (first ++ second) none = (do
      let v ← resolveTokens host setup root first none
      resolveTokens host setup v second none) := by
  have hboth : first ++ second ≠ [] := List.append_ne_nil_of_left_ne_nil hfirst _
  simp only [resolveTokens_of_ne_nil hboth, resolveTokens_of_ne_nil hfirst,
    resolveTokens_of_ne_nil hsecond]
  exact walkFrom_append host setup first second hforward ⟨root, []⟩ 0

end

/-- A list that is reversed by a call, and then read by alternatives of which one is computed. -/
theorem resolveTokens_append_reversed :
    let world : World Unit :=
      ⟨{ cells := #[.map (.ofList [("a", .container 1)]), .list [.integer 0, .integer 5]] }, ()⟩
    let setup : Setup := { maxDepth := 4 }
    let first : List Token := [.word "a", .word "reverse", .container .call []]
    let second : List Token := [.collection [.word "0", .container .evalProperty [.word "1"]]]
    first ≠ [] ∧ second ≠ [] ∧ Token.allForward second = true ∧ ∃ w world',
      resolveTokens Host.none setup (.container 0) (first ++ second) none world = .ok w world' ∧
        world'.graph.items? w = some [.integer 5, .integer 5] ∧
        (do
          let v ← resolveTokens Host.none setup (.container 0) first none
          resolveTokens Host.none setup v second none) world = .ok w world' := by
  intro world setup first second
  have hfirst : first ≠ [] := List.cons_ne_nil _ _
  have hsecond : second ≠ [] := List.cons_ne_nil _ _
  have hboth := resolveTokens_append (ε := Unit) Host.none setup hfirst hsecond rfl (.container 0)
  obtain ⟨w, world', hrun, hitems⟩ : ∃ w world',
      resolveTokens Host.none setup (.container 0) (first ++ second) none world = .ok w world' ∧
        world'.graph.items? w = some [.integer 5, .integer 5] := ⟨_, _, rfl, rfl⟩
  refine ⟨hfirst, hsecond, rfl, w, world', hrun, hitems, ?_⟩
  rw [← hboth]
  exact hrun

end GraphPath
