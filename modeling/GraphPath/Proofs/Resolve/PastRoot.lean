import GraphPath.Proofs.Resolve.Stack
import GraphPath.Proofs.Resolve.WalkDepth

/-! # Going back past the root

A resolution fails because it would go back past the root only at a modified word with as many
parent modifiers as there are values on the stack, and the step by this word is on record
(`resolveTokens_pastRoot`).  Such a failure comes up from the walk that it happens in through all
walks around it, and nothing else than modifiers brings it about.
-/

namespace GraphPath

/-- A step by a modified word that goes back past the root, by `n` parent modifiers. -/
def Entry.PastRoot (entry : Entry) (n : Nat) : Prop :=
  ∃ word modifiers, entry.token = .modified word modifiers ∧ modifiers.parent = n ∧
    entry.stack.length ≤ n

section
variable {ε α β : Type}

/-- **What goes back past the root in a computation is on record**, unless it is the computation's
`own` doing. -/
def Blames (own : Nat → Prop) (x : Resolve (Recorded ε) α) : Prop :=
  ∀ world n after, x world = .error (.unresolved (.parentPastRoot n)) after →
    own n ∨ ∃ visit ∈ after.host.visits, visit.PastRoot n

namespace Blames
variable {own own' : Nat → Prop} {x : Resolve (Recorded ε) α}

theorem of_offStack (hx : Resolve.FailsOnly PathError.OffStack x) : Blames own x := by
  intro world n after hfails
  exact absurd rfl (hx world _ after hfails n)

theorem mono (hx : Blames own x) (hle : ∀ n, own n → own' n) : Blames own' x := by
  intro world n after hfails
  exact (hx world n after hfails).imp_left (hle n)

protected theorem pure (a : α) : Blames own (pure a : Resolve (Recorded ε) α) :=
  .of_offStack (.pure a)

protected theorem bind {f : α → Resolve (Recorded ε) β} (hx : Blames own x)
    (hf : ∀ a, Blames own (f a)) : Blames own (x >>= f) := by
  intro world n after hfails
  rcases bind_eq_error hfails with hfails | ⟨a, between, -, hfails⟩
  · exact hx world n after hfails
  · exact hf a between n after hfails

/-- What a step has done itself is on record when it is over. -/
theorem visit {entry : Entry} {x : Resolve (Recorded ε) (Value × List Value)}
    (hx : Blames entry.PastRoot x) : Blames own (GraphPath.visit entry x) := by
  intro world n after hfails
  unfold GraphPath.visit at hfails
  split at hfails
  · cases hfails
  · rename_i e between hstep
    cases hfails
    rcases hx world n between hstep with hown | ⟨visit, hvisit, hpast⟩
    · exact Or.inr ⟨_, List.mem_cons_self, hown⟩
    · exact Or.inr ⟨visit, List.mem_cons_of_mem _ hvisit, hpast⟩

end Blames

/-! ## What has nothing to do with the stack -/

section
variable {setup : Setup}

theorem enter_offStack (tree : List Token) (level : Nat) :
    Resolve.FailsOnly PathError.OffStack (enter (ε := ε) setup tree level) := by
  unfold enter
  split
  · exact .throw nofun
  · split
    · exact .throw nofun
    · exact .pure ()

theorem enterAlternative_offStack (level : Nat) (member : Token) :
    Resolve.FailsOnly PathError.OffStack (enterAlternative (ε := ε) setup level member) := by
  rcases enterAlternative_cases member with ⟨-, henter⟩ | ⟨-, henter⟩
  · rw [henter]
    exact enter_offStack _ _
  · rw [henter]
    exact .pure ()

theorem spread_offStack (v : Value) :
    Resolve.FailsOnly PathError.OffStack (spread v : Resolve ε (List Value)) :=
  (Edit.OffStack.ask _).run

theorem look_offStack (stack : List Value) (index : Int) :
    Resolve.FailsOnly PathError.OffStack (look (ε := ε) stack index) := by
  intro world e after hfails
  cases hfails

theorem receiver_offStack (stack : List Value) :
    Resolve.FailsOnly PathError.OffStack (OnStack.receiver (ε := ε) stack) := by
  unfold OnStack.receiver
  split
  · exact look_offStack _ _
  · exact .pure _

/-- A host fails in the same ways when a record is kept. -/
theorem Host.FailsOnly.recorded {E : PathError → Prop} {host : Host ε} (hhost : host.FailsOnly E) :
    host.recorded.FailsOnly E := by
  intro f receiver arguments world e after hfails
  unfold Host.recorded at hfails
  split at hfails
  · cases hfails
  · rename_i hcall
    cases hfails
    exact hhost f receiver arguments _ _ _ hcall

theorem call_offStack {host : Host ε} (hhost : host.FailsOnly PathError.OffStack) (f : Callable)
    (receiver : Value) (arguments : List Value) :
    Resolve.FailsOnly PathError.OffStack (call host f receiver arguments) := by
  unfold call
  split
  · exact (Edit.OffStack.attempt fun g => g.callMethod_offStack _ _ _).run
  · exact hhost f receiver arguments

end

/-! ## Every step -/

section
variable {host : Host ε} {setup : Setup}

/-- Only going back fails here, and by as many parent modifiers as there are. -/
theorem blames_select {own : Nat → Prop} (context : Value) (stack : List Value)
    (modifiers : Modifiers)
    (hown : stack.length ≤ modifiers.parent → own modifiers.parent) :
    Blames own (OnStack.select (ε := ε) context stack modifiers) := by
  have hback : Blames own (OnStack.back (ε := ε) context stack modifiers.parent) := by
    unfold OnStack.back
    split
    · split
      · rename_i hpast
        intro world n after hfails
        cases hfails
        exact Or.inl (hown hpast)
      · exact .of_offStack (look_offStack _ _)
    · exact .pure _
  unfold OnStack.select
  apply hback.bind
  intro target
  split
  · apply Blames.bind (.of_offStack (look_offStack _ _))
    intro first
    exact .pure _
  · exact .pure _

mutual

/-- A step that goes back past the root does so by its own modifiers, or by those of a step inside,
which is on record. -/
theorem blames_step (hhost : host.FailsOnly PathError.OffStack) (context : Value)
    (stack : List Value) (new? : Option Value) (vivify : Bool) (level : Nat) (token : Token) :
    Blames (Entry.PastRoot ⟨context, stack, new?, vivify, level, token⟩)
      (OnStack.step host setup context stack new? vivify level token) := by
  match token with
  | .word key =>
    rw [OnStack.step]
    apply Blames.bind (.of_offStack (Step.byKey_offStack context key new? vivify).run)
    intro result
    exact .pure _
  | .modified word modifiers =>
    rw [OnStack.step]
    apply Blames.bind
    · apply blames_select
      intro hpast
      exact ⟨word, modifiers, rfl, rfl, hpast⟩
    · rintro ⟨target, stack'⟩
      apply Blames.bind (.of_offStack (Step.onTarget_offStack target word modifiers new?).run)
      intro result
      exact .pure _
  | .collection members =>
    rw [OnStack.step]
    apply (blames_alternatives hhost context stack new? level members).bind
    intro results
    apply Blames.bind (.of_offStack (Edit.OffStack.make _).run)
    intro result
    exact .pure _
  | .container .call tree =>
    cases new? with
    | some v =>
      rw [OnStack.step_call_some]
      exact .of_offStack (.throw nofun)
    | none =>
      by_cases hcallable : ∃ f, context = .callable f
      · rcases hcallable with ⟨f, rfl⟩
        rw [OnStack.step_call_callable]
        apply Blames.bind
        · unfold OnStack.callArguments
          split
          · exact .pure _
          · apply Blames.bind (.of_offStack (enter_offStack tree _))
            intro _
            apply (blames_walkFrom hhost _ stack none (level + 1) tree).bind
            intro interior
            exact .of_offStack (spread_offStack interior)
        · intro arguments
          apply Blames.bind (.of_offStack (receiver_offStack stack))
          intro receiver
          apply Blames.bind (.of_offStack (call_offStack hhost.recorded f receiver arguments))
          intro result
          exact .pure _
      · rw [OnStack.step_call_of_not_callable (not_exists.mp hcallable)]
        apply Blames.bind (.of_offStack (Edit.OffStack.ask _).run)
        intro kind
        exact .of_offStack (.throw nofun)
  | .container .evalProperty tree =>
    rw [OnStack.step]
    apply Blames.bind (.of_offStack (enter_offStack tree _))
    intro _
    apply (blames_walkFrom hhost context stack none (level + 1) tree).bind
    intro computed
    apply Blames.bind
      (.of_offStack (Edit.OffStack.askFor fun g => g.toKey_offStack computed).run)
    intro key
    apply Blames.bind (.of_offStack (Step.byKey_offStack context key new? vivify).run)
    intro result
    exact .pure _
  | .container .property tree | .container .quote tree =>
    rw [OnStack.step_path_eq (by exact trivial)]
    apply Blames.bind (.of_offStack (enter_offStack tree _))
    intro _
    apply (blames_walkFrom hhost context stack new? (level + 1) tree).bind
    intro result
    exact .pure _

theorem blames_alternatives {own : Nat → Prop} (hhost : host.FailsOnly PathError.OffStack)
    (context : Value) (stack : List Value) (new? : Option Value) (level : Nat)
    (members : List Token) :
    Blames own (OnStack.alternatives host setup context stack new? level members) := by
  match members with
  | [] =>
    rw [OnStack.alternatives]
    exact .pure _
  | member :: rest =>
    have htaken := blames_step hhost context stack new? false (alternativeLevel level member) member
    have hmember : Blames own
        (OnStack.alternative host setup context stack new? level member) := by
      unfold OnStack.alternative
      apply Blames.bind (.of_offStack (enterAlternative_offStack level member))
      intro _
      dsimp only
      split
      case h_5 =>
        -- a bracket is no word, so it goes nowhere by itself
        apply htaken.mono
        rintro n ⟨word, modifiers, ⟨⟩, -⟩
      all_goals exact htaken.visit
    rw [OnStack.alternatives_cons]
    apply hmember.bind
    intro result
    apply Blames.bind (.of_offStack (spread_offStack result.1))
    intro results
    apply (blames_alternatives hhost context stack new? level rest).bind
    intro others
    exact .pure _

theorem blames_walkFrom {own : Nat → Prop} (hhost : host.FailsOnly PathError.OffStack)
    (context : Value) (stack : List Value) (new? : Option Value) (level : Nat)
    (tokens : List Token) :
    Blames own (OnStack.walkFrom host setup context stack new? level tokens) := by
  match tokens with
  | [] =>
    rw [OnStack.walkFrom]
    exact .pure _
  | token :: rest =>
    rw [OnStack.walkFrom]
    apply (blames_step hhost context stack _ _ level token).visit.bind
    rintro ⟨result, stack'⟩
    exact blames_walkFrom hhost result (stack' ++ [result]) new? level rest

end

/-- **A resolution goes back past the root only where a modified word has as many parent modifiers
as there are values on the stack**, unless a function of the host does; and the record tells
where. -/
theorem resolveTokens_pastRoot (hhost : host.FailsOnly PathError.OffStack) {root : Value}
    {tokens : List Token} {new? : Option Value} {world world' : World ε} {n : Nat}
    (hfails : resolveTokens host setup root tokens new? world =
      .error (.unresolved (.parentPastRoot n)) world') :
    let run := OnStack.resolve host setup root tokens new? world.unrecorded
    ∃ visit ∈ (worldAfter run).host.visits, ∃ word modifiers,
      visit.token = .modified word modifiers ∧ modifiers.parent = n ∧ visit.stack.length ≤ n := by
  intro run
  have hseen : resolveTokens host setup root tokens new? world = resultSeenAs Recorded.host run :=
    (tracks_resolve host setup root tokens new?).seen world.unrecorded
  have hblames : Blames (fun _ => False) (OnStack.resolve host setup root tokens new?) :=
    Blames.bind (.of_offStack (enter_offStack tokens 0)) fun _ =>
      blames_walkFrom hhost root [root] new? 0 tokens
  rw [hfails] at hseen
  cases hrun : run with
  | ok v after =>
    rw [hrun] at hseen
    cases hseen
  | error e after =>
    rw [hrun] at hseen
    cases hseen
    exact (hblames world.unrecorded n after hrun).resolve_left id

end

end

end GraphPath
