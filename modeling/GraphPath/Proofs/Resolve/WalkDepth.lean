import GraphPath.Proofs.Resolve.Failures
import GraphPath.Proofs.Token.Shape

/-! # How deep walks nest

Reading a text counts how deep containers nest in it (`Token.depth`), and resolving its tokens
counts how deep walks do (`Token.walkDepth`).  A container makes a walk of its own, unless it is
a call without arguments.  But so does every alternative of a collection that is no bracket of
its own, and collections are not counted where a text is read.

**A resolution whose walks nest within the limit is not too deep** (`resolveTokens_withinLimit`).
And walks nest at most as deep as containers and collections together
(`Token.walkDepths_le`); in a tree that was read, collections nest at most one deeper than
containers (`Token.collectionDepths_le`).
-/

namespace GraphPath

mutual

/-- How deep walks nest in a step by a token. -/
def Token.walkDepth : Token → Nat
  | .word _ | .modified _ _ => 0
  | .container .call tree => if tree.isEmpty then 0 else Token.walkDepths tree + 1
  | .container _ tree => Token.walkDepths tree + 1
  | .collection members => Token.memberWalkDepths members

/-- How deep walks nest in the steps by a row of tokens. -/
def Token.walkDepths : List Token → Nat
  | [] => 0
  | token :: rest => max token.walkDepth (Token.walkDepths rest)

/-- How deep walks nest in the alternatives of a collection. -/
def Token.memberWalkDepths : List Token → Nat
  | [] => 0
  | member :: rest =>
    max (alternativeLevel member.walkDepth member) (Token.memberWalkDepths rest)

end

mutual

/-- How deep collections nest in a token. -/
def Token.collectionDepth : Token → Nat
  | .word _ | .modified _ _ => 0
  | .container _ tree => Token.collectionDepths tree
  | .collection members => Token.collectionDepths members + 1

/-- How deep collections nest in a row of tokens. -/
def Token.collectionDepths : List Token → Nat
  | [] => 0
  | token :: rest => max token.collectionDepth (Token.collectionDepths rest)

end

/-! ## Within the limit -/

/-- The errors of single steps: a key that leads nowhere, and a call that cannot be made. -/
def PathError.OfStep : PathError → Prop
  | .unresolved _ | .uncallable _ => True
  | .malformed _ _ | .tooDeep _ | .config _ => False

/-- A level more outside is a level more inside. -/
theorem alternativeLevel_add (level depth : Nat) (member : Token) :
    alternativeLevel level member + depth = level + alternativeLevel depth member := by
  unfold alternativeLevel
  split <;> omega

section
variable {ε : Type} {host : Host ε} {setup : Setup} {E : PathError → Prop} {level : Nat}

theorem enter_withinLimit (hE : ∀ e : PathError, e.OfStep → E e) (hlevel : level ≤ setup.maxDepth)
    (tokens : List Token) : Resolve.FailsOnly E (enter (ε := ε) setup tokens level) := by
  unfold enter
  rw [if_neg (Nat.not_lt.mpr hlevel)]
  split
  · exact .throw (hE _ trivial)
  · exact .pure ()

/-- An alternative is entered one level deeper, if at all. -/
theorem enterAlternative_withinLimit (hE : ∀ e : PathError, e.OfStep → E e) {member : Token}
    (hlevel : alternativeLevel level member ≤ setup.maxDepth) :
    Resolve.FailsOnly E (enterAlternative (ε := ε) setup level member) := by
  rcases enterAlternative_cases member with ⟨hdeeper, henter⟩ | ⟨-, henter⟩
  · rw [hdeeper] at hlevel
    rw [henter]
    exact enter_withinLimit hE hlevel _
  · rw [henter]
    exact .pure ()

/-- A host whose functions fail with errors of `E` only. -/
def Host.FailsOnly (E : PathError → Prop) (host : Host ε) : Prop :=
  ∀ f receiver arguments, Resolve.FailsOnly E (host f receiver arguments)

theorem call_withinLimit (hE : ∀ e : PathError, e.OfStep → E e) (hhost : host.FailsOnly E)
    (f : Callable) (receiver : Value) (arguments : List Value) :
    Resolve.FailsOnly E (call host f receiver arguments) := by
  unfold call
  split
  · exact .run (fun _ => hE _ trivial) _
  · exact hhost f receiver arguments

mutual

/-- The levels that are left for a step are those that its walks need. -/
theorem step_withinLimit (hE : ∀ e : PathError, e.OfStep → E e) (hhost : host.FailsOnly E)
    (trail : Trail) (new? : Option Value) (vivify : Bool) (level : Nat) (token : Token)
    (hdepth : level + token.walkDepth ≤ setup.maxDepth) :
    Resolve.FailsOnly E (step host setup trail new? vivify level token) := by
  have hrun {α : Type} (edit : Edit α) : Resolve.FailsOnly E (edit.run : Resolve ε α) :=
    .run (fun _ => hE _ trivial) edit
  match token with
  | .word key =>
    rw [step]
    exact (hrun _).bind fun _ => .pure _
  | .modified word modifiers =>
    rw [step]
    exact hrun _
  | .collection members =>
    rw [Token.walkDepth] at hdepth
    rw [step]
    exact (alternatives_withinLimit hE hhost trail new? level members hdepth).bind fun _ =>
      (hrun _).bind fun _ => .pure _
  | .container .call tree =>
    cases new? with
    | some v =>
      rw [step_call_some]
      exact .throw (hE _ trivial)
    | none =>
      by_cases hcallable : ∃ f, trail.current = .callable f
      · obtain ⟨f, hcurrent⟩ := hcallable
        rw [step_call_callable hcurrent, callArguments]
        refine Resolve.FailsOnly.bind ?_ fun arguments =>
          (call_withinLimit hE hhost f trail.receiver arguments).bind fun _ => .pure _
        rw [Token.walkDepth] at hdepth
        split
        · exact .pure _
        · rename_i hempty
          rw [if_neg hempty] at hdepth
          exact (enter_withinLimit hE (by omega) tree).bind fun _ =>
            (walkFrom_withinLimit hE hhost trail none (level + 1) tree (by omega)).bind fun _ =>
              hrun _
      · rw [step_call_of_not_callable (not_exists.mp hcallable)]
        exact (hrun _).bind fun _ => .throw (hE _ trivial)
  | .container .evalProperty tree =>
    simp only [Token.walkDepth] at hdepth
    rw [step]
    exact (enter_withinLimit hE (by omega) tree).bind fun _ =>
      (walkFrom_withinLimit hE hhost trail none (level + 1) tree (by omega)).bind fun _ =>
        (hrun _).bind fun _ => (hrun _).bind fun _ => .pure _
  | .container .property tree | .container .quote tree =>
    simp only [Token.walkDepth] at hdepth
    rw [step_path_eq (by exact trivial)]
    exact (enter_withinLimit hE (by omega) tree).bind fun _ =>
      (walkFrom_withinLimit hE hhost trail new? (level + 1) tree (by omega)).bind fun _ => .pure _

theorem alternatives_withinLimit (hE : ∀ e : PathError, e.OfStep → E e)
    (hhost : host.FailsOnly E) (trail : Trail) (new? : Option Value) (level : Nat)
    (members : List Token) (hdepth : level + Token.memberWalkDepths members ≤ setup.maxDepth) :
    Resolve.FailsOnly E (alternatives host setup trail new? level members) := by
  match members with
  | [] =>
    rw [alternatives]
    exact .pure _
  | member :: rest =>
    rw [Token.memberWalkDepths] at hdepth
    have hmember := alternativeLevel_add level member.walkDepth member
    rw [alternatives_cons, alternative, bind_assoc]
    exact (enterAlternative_withinLimit hE (by omega)).bind fun _ =>
      (step_withinLimit hE hhost trail new? false _ member (by omega)).bind fun _ =>
        Resolve.FailsOnly.bind (.run (fun _ => hE _ trivial) _) fun _ =>
          (alternatives_withinLimit hE hhost trail new? level rest (by omega)).bind fun _ => .pure _

theorem walkFrom_withinLimit (hE : ∀ e : PathError, e.OfStep → E e) (hhost : host.FailsOnly E)
    (trail : Trail) (new? : Option Value) (level : Nat) (tokens : List Token)
    (hdepth : level + Token.walkDepths tokens ≤ setup.maxDepth) :
    Resolve.FailsOnly E (walkFrom host setup trail new? level tokens) := by
  match tokens with
  | [] =>
    rw [walkFrom]
    exact .pure _
  | token :: rest =>
    rw [Token.walkDepths] at hdepth
    rw [walkFrom]
    exact (step_withinLimit hE hhost trail _ _ level token (by omega)).bind fun _ =>
      walkFrom_withinLimit hE hhost _ new? level rest (by omega)

end

/-- **A resolution whose walks nest within the limit is not too deep**: it fails with an error of a
step or one of the host's, if at all. -/
theorem resolveTokens_withinLimit (hE : ∀ e : PathError, e.OfStep → E e)
    (hhost : host.FailsOnly E) {tokens : List Token}
    (hdepth : Token.walkDepths tokens ≤ setup.maxDepth) (root : Value) (new? : Option Value) :
    Resolve.FailsOnly E (resolveTokens host setup root tokens new?) :=
  (enter_withinLimit hE (Nat.zero_le _) tokens).bind fun _ =>
    walkFrom_withinLimit hE hhost _ new? 0 tokens (by omega)

end

/-! ## Walks against containers and collections -/

namespace Token

mutual

theorem walkDepth_le (token : Token) : token.walkDepth ≤ token.depth + token.collectionDepth := by
  match token with
  | .word _ | .modified _ _ => exact Nat.zero_le _
  | .collection members =>
    rw [walkDepth, depth, collectionDepth]
    exact memberWalkDepths_le members
  | .container role tree =>
    have htree := walkDepths_le tree
    cases role <;> simp only [walkDepth, depth, collectionDepth]
    case call => split <;> omega
    all_goals omega

/-- **Walks nest at most as deep as containers and collections together.** -/
theorem walkDepths_le (tokens : List Token) :
    walkDepths tokens ≤ depths tokens + collectionDepths tokens := by
  match tokens with
  | [] => exact Nat.zero_le _
  | token :: rest =>
    have htoken := walkDepth_le token
    have hrest := walkDepths_le rest
    rw [walkDepths, depths, collectionDepths]
    omega

theorem memberWalkDepths_le (members : List Token) :
    memberWalkDepths members ≤ depths members + (collectionDepths members + 1) := by
  match members with
  | [] => exact Nat.zero_le _
  | member :: rest =>
    have hmember := walkDepth_le member
    have hrest := memberWalkDepths_le rest
    have hlevel : alternativeLevel member.walkDepth member ≤ member.walkDepth + 1 := by
      unfold alternativeLevel
      split <;> omega
    rw [memberWalkDepths, depths, collectionDepths]
    omega

end

mutual

theorem collectionDepth_le {token : Token} (h : token.isStep = true) :
    token.collectionDepth ≤ token.depth + 1 := by
  match token with
  | .word _ | .modified _ _ => exact Nat.zero_le _
  | .container .call tree | .container .evalProperty tree =>
    have htree : collectionDepths tree ≤ depths tree + 1 := collectionDepths_le h
    simp only [depth, collectionDepth]
    omega
  | .collection members =>
    rw [isStep, Bool.and_eq_true] at h
    have hmembers := memberCollectionDepths_le h.2
    simp only [depth, collectionDepth]
    omega

/-- **In a row of steps, collections nest at most one deeper than containers**, since there is a
container around each but the outermost. -/
theorem collectionDepths_le {tokens : List Token} (h : areSteps tokens = true) :
    collectionDepths tokens ≤ depths tokens + 1 := by
  match tokens with
  | [] => exact Nat.zero_le _
  | token :: rest =>
    rw [areSteps, Bool.and_eq_true] at h
    have htoken := collectionDepth_le h.1
    have hrest := collectionDepths_le h.2
    rw [depths, collectionDepths]
    omega

theorem memberCollectionDepths_le {members : List Token} (h : areMembers members = true) :
    collectionDepths members ≤ depths members := by
  match members with
  | [] => exact Nat.zero_le _
  | member :: rest =>
    rw [areMembers, Bool.and_eq_true] at h
    have hrest := memberCollectionDepths_le h.2
    have hmember : member.collectionDepth ≤ member.depth := by
      match member with
      | .word _ | .modified _ _ => exact Nat.zero_le _
      | .container .call tree | .container .evalProperty tree | .container .property tree =>
        have htree : collectionDepths tree ≤ depths tree + 1 := collectionDepths_le h.1
        exact htree
    rw [depths, collectionDepths]
    omega

end

end Token

end GraphPath
