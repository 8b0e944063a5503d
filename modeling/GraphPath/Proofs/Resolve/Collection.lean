import GraphPath.Proofs.Resolve.SideBySide

/-! # What a collection reads

A collection is read one member after the other, and what its members come to is
concatenated: the items of a result that is a list, and any other result itself.  The
members are read from one trail, but not from one document; each of them finds the lists
that the ones before it have made.  It makes no difference to them
(`alternative_beside`).  So **reading a collection is reading its members on their own**,
each behind the same row of tokens and on the document as it was
(`resolveTokens_collection`).  A reading that fails has failed at the first member that
cannot be read.

Members that are no brackets are nested one deeper inside a collection than outside, so
that a collection may run into the depth limit where no member does so on its own.
-/

namespace GraphPath

section
variable {ε α : Type}

/-- What a result contributes to a collection: its items, or itself. -/
def Contributes (result : EStateM.Result PathError (World ε) Value) (items : List Value) : Prop :=
  ∃ v world, result = .ok v world ∧ items = (world.graph.items? v).getD [v]

/-- **What a collection comes to**, told from what its members come to on their own: something made
of all their contributions, or the failure of the first one that fails; or it runs into the depth
limit. -/
inductive Concatenates (members : List Token)
    (part : Token → EStateM.Result PathError (World ε) Value)
    (R : α → World ε → List Value → Prop) : EStateM.Result PathError (World ε) α → Prop
  | ok {a : α} {world : World ε} {contributions : List (List Value)}
      (hparts : List.Forall₂ (fun member items => Contributes (part member) items) members
        contributions)
      (h : R a world contributions.flatten) : Concatenates members part R (.ok a world)
  | error {e : PathError} {world after : World ε} {before rest : List Token} {member : Token}
      (hmembers : members = before ++ member :: rest)
      (hbefore : ∀ earlier ∈ before, ∃ v after, part earlier = .ok v after)
      (hmember : part member = .error e after) : Concatenates members part R (.error e world)
  | tooDeep {e : PathError} (hdeep : e.IsTooDeep) (world : World ε) :
      Concatenates members part R (.error e world)

namespace Concatenates
variable {members : List Token} {part : Token → EStateM.Result PathError (World ε) Value}
  {R : α → World ε → List Value → Prop} {whole : EStateM.Result PathError (World ε) α}

/-- If no member can be read, the first one fails. -/
theorem of_first (hne : members ≠ []) {e : PathError} {world : World ε}
    (hparts : ∀ member, part member = .error e world) :
    Concatenates members part R (.error e world) := by
  cases members with
  | nil => exact absurd rfl hne
  | cons member rest => exact .error (List.nil_append _).symm nofun (hparts member)

theorem of_ok {a : α} {world : World ε} (h : Concatenates members part R (.ok a world)) :
    ∃ contributions,
      List.Forall₂ (fun member items => Contributes (part member) items) members contributions ∧
        R a world contributions.flatten := by
  cases h with
  | ok hparts h => exact ⟨_, hparts, h⟩

theorem of_error {e : PathError} {world : World ε} (hdepth : ¬ e.IsTooDeep)
    (h : Concatenates members part R (.error e world)) :
    ∃ before member rest after, members = before ++ member :: rest ∧
      (∀ earlier ∈ before, ∃ v after, part earlier = .ok v after) ∧
      part member = .error e after := by
  cases h with
  | error hmembers hbefore hmember => exact ⟨_, _, _, _, hmembers, hbefore, hmember⟩
  | tooDeep hdeep => exact absurd hdeep hdepth

/-- A collection can be read if all of its members can. -/
theorem exists_ok_iff (hdepth : ∀ e world, whole = .error e world → ¬ e.IsTooDeep)
    (h : Concatenates members part R whole) :
    (∃ a world, whole = .ok a world) ↔
      ∀ member ∈ members, ∃ v world, part member = .ok v world := by
  constructor
  · rintro ⟨a, world, rfl⟩ member hmember
    obtain ⟨contributions, hparts, -⟩ := h.of_ok
    have hread : List.Forall₂ (fun member _ => (∃ v after, part member = .ok v after) ∧ True)
        members contributions :=
      hparts.imp fun member items ⟨v, after, hok, _⟩ => ⟨⟨v, after, hok⟩, trivial⟩
    exact ((List.forall₂_and_left _ _).mp hread).1 member hmember
  · intro hall
    cases hwhole : whole with
    | ok a world => exact ⟨a, world, rfl⟩
    | error e world =>
      rw [hwhole] at h
      obtain ⟨before, member, rest, after, rfl, -, hfails⟩ := h.of_error (hdepth e world hwhole)
      have hmem : member ∈ before ++ member :: rest :=
        List.mem_append_right _ List.mem_cons_self
      obtain ⟨v, after', hok⟩ := hall member hmem
      rw [hok] at hfails
      cases hfails

end Concatenates

end

section
variable {ε : Type} (host : Host ε) {setup : Setup} {g : Graph} {world base : World ε}
  {trail : Trail} {level level' : Nat}

/-- **A member of a collection comes to the same outside of it**, where it is nested no deeper and
the document may lack what other members have made. -/
theorem alternative_beside (hg : g.Closed) (harguments : ∀ v ∈ setup.arguments, g.Holds v)
    (hlevel : level' ≤ level) (habreast : g.Abreast world.graph base.graph trail trail)
    (member : Token) (hfree : member.callFree = true) :
    Resolve.Beside (fun g₁ g₂ result v => g.SameResult g₁ g₂ result.1 v) world base
      (alternative host setup trail none level member)
      (walkFrom host setup trail none level' [member]) := by
  -- outside of the collection nothing is entered
  have henter : Resolve.Beside (ε := ε) (fun _ _ (_ _ : Unit) => True) world base
      (enterAlternative setup level member) (pure ()) := by
    rcases enterAlternative_cases member with ⟨-, henter⟩ | ⟨-, henter⟩
    · rw [henter]
      unfold enter
      split
      · exact .excused trivial _ _
      · exact .pure trivial
    · rw [henter]
      exact .pure trivial
  have hdeeper : level' ≤ alternativeLevel level member := by
    rcases enterAlternative_cases member with ⟨hdeeper, -⟩ | ⟨hdeeper, -⟩ <;>
      rw [hdeeper] <;> omega
  rw [walkFrom_singleton, ← pure_bind () fun _ => step host setup trail none false level' member >>= _]
  unfold alternative
  refine henter.bind fun _ _ w w' h₁ h₂ _ => ?_
  rw [← bind_pure (step host setup trail none false (alternativeLevel level member) member)]
  refine (step_beside hg harguments hdeeper (habreast.mono h₁ h₂) member hfree).bind
    fun result result' t t' _ _ hresult => ?_
  exact .pure hresult.1

/-- **The members of a collection, one by one.**  By induction on the members, while the document
grows by what each of them makes. -/
theorem alternatives_concatenates (hg : g.Closed) (harguments : ∀ v ∈ setup.arguments, g.Holds v)
    (hlevel : level' ≤ level) (members : List Token)
    (habreast : g.Abreast world.graph base.graph trail trail)
    (hfree : Token.allCallFree members = true) :
    Concatenates members (fun member => walkFrom host setup trail none level' [member] base)
      (fun items after contributed =>
        g.PreservedIn after.graph ∧ List.Forall₂ g.SameItem items contributed)
      (alternatives host setup trail none level members world) := by
  induction members generalizing world with
  | nil =>
    rw [alternatives]
    exact .ok .nil ⟨habreast.left, .nil⟩
  | cons member rest ih =>
    rw [Token.allCallFree, Bool.and_eq_true] at hfree
    have hmember := alternative_beside host hg harguments hlevel habreast member hfree.1
    rw [alternatives_cons]
    rcases hmember.cases with ⟨result, after, v, after', hok, halone, hcome⟩ |
      ⟨e, after, after', herror, halone⟩ | ⟨e, after, hdeep, herror⟩
    · have hitems := hcome.related.spread hg (habreast.left.trans hcome.left)
        (habreast.right.trans hcome.right)
      have hspread : spread result.1 after =
          .ok ((after.graph.items? result.1).getD [result.1]) after := rfl
      have hrest := ih (habreast.mono hcome.left (.refl _)) hfree.2
      rw [bind_of_ok hok, bind_of_ok hspread]
      generalize hothers : alternatives host setup trail none level rest after = r at hrest
      cases hrest with
      | ok hparts h =>
        rw [bind_of_ok hothers]
        exact .ok (.cons ⟨v, after', halone, rfl⟩ hparts) ⟨h.1, List.rel_append hitems h.2⟩
      | @error e _ _ before _ _ hmembers hbefore hfails =>
        rw [bind_of_error hothers]
        have hsplit : member :: rest = (member :: before) ++ _ := congrArg (member :: ·) hmembers
        refine .error hsplit (fun earlier hearlier => ?_) hfails
        rcases List.mem_cons.mp hearlier with rfl | hearlier
        · exact ⟨v, after', halone⟩
        · exact hbefore earlier hearlier
      | tooDeep hdeep =>
        rw [bind_of_error hothers]
        exact .tooDeep hdeep _
    · rw [bind_of_error herror]
      exact .error (List.nil_append _).symm nofun halone
    · rw [bind_of_error herror]
      exact .tooDeep hdeep _

/-- A new list of what has been contributed. -/
def Graph.NewListOf (g : Graph) (v : Value) (world : World ε) (contributed : List Value) : Prop :=
  g.PreservedIn world.graph ∧ ∃ h items, v = .container h ∧ g.cells.size ≤ h ∧
    world.graph.read h = .list items ∧ List.Forall₂ g.SameItem items contributed

/-- **A collection at the end of a walk.**  By induction on the tokens in front of it, which are
read in the same way for every member. -/
theorem walkFrom_collection (level : Nat) (hg : g.Closed) (harguments : ∀ v ∈ setup.arguments, g.Holds v)
    (front : List Token) (hfront : Token.allCallFree front = true) {members : List Token}
    (hne : members ≠ []) (hfree : Token.allCallFree members = true)
    (habreast : g.Abreast world.graph world.graph trail trail) :
    Concatenates members (fun member => walkFrom host setup trail none level (front ++ [member]) world)
      g.NewListOf
      (walkFrom host setup trail none level (front ++ [.collection members]) world) := by
  induction front generalizing trail world with
  | nil =>
    have hmembers := alternatives_concatenates host hg harguments (Nat.le_refl level)
      members habreast hfree
    simp only [List.nil_append]
    rw [walkFrom_singleton, step]
    generalize halternatives : alternatives host setup trail none level members world = r at hmembers
    cases hmembers with
    | @ok items after contributions hparts h =>
      rw [bind_assoc, bind_of_ok halternatives]
      refine .ok hparts ⟨h.1.trans (Graph.preservedIn_newList _ _), _, items, rfl, ?_,
        Graph.read_alloc_self _ _, h.2⟩
      exact h.1.size_le
    | error hsplit hbefore hmember =>
      rw [bind_assoc, bind_of_error halternatives]
      exact .error hsplit hbefore hmember
    | tooDeep hdeep =>
      rw [bind_assoc, bind_of_error halternatives]
      exact .tooDeep hdeep _
  | cons token front ih =>
    rw [Token.allCallFree, Bool.and_eq_true] at hfront
    simp only [List.cons_append, walkFrom_cons_none]
    have hstep : Resolve.Beside g.SameStep world world
        (step host setup trail none false level token)
        (step host setup trail none false level token) :=
      step_beside hg harguments (Nat.le_refl level) habreast token hfront.1
    unfold Resolve.Beside at hstep
    cases hrun : step host setup trail none false level token world with
    | error e after =>
      simp only [bind_of_error hrun]
      exact .of_first hne fun _ => rfl
    | ok result after =>
      rw [hrun] at hstep
      cases hstep with
      | ok hcome =>
        simp only [bind_of_ok hrun]
        exact ih hfront.2 (habreast.push hcome.left hcome.right hcome.related)

/-- What fails before the last step fails with any last step. -/
theorem walkFrom_concat_of_error {front : List Token} {e : PathError} {after : World ε}
    (h : walkFrom host setup trail none level front world = .error e after) (last : Token) :
    walkFrom host setup trail none level (front ++ [last]) world = .error e after := by
  induction front generalizing trail world with
  | nil =>
    rw [walkFrom] at h
    cases h
  | cons token front ih =>
    rw [walkFrom_cons_none] at h
    rw [List.cons_append, walkFrom_cons_none]
    cases hstep : step host setup trail none false level token world with
    | error e' after' =>
      rw [bind_of_error hstep] at h ⊢
      exact h
    | ok result after' =>
      rw [bind_of_ok hstep] at h ⊢
      exact ih h

end

section
variable {ε : Type} {host : Host ε} {setup : Setup} {world : World ε} {root : Value}

/-- **Reading a collection is reading its members on their own**, each behind the same tokens and on
the document as it was.  It succeeds if every member can be read.  It comes to a new list then, of
the items of each result that is a list and of each other result itself, in the order of the
members.  Otherwise it fails as the first member does that cannot be read, and as the tokens in
front do if these cannot be read. -/
theorem resolveTokens_collection (hclosed : world.graph.Closed) (hroot : world.graph.Holds root)
    (harguments : ∀ v ∈ setup.arguments, world.graph.Holds v) {front members : List Token}
    (hfront : Token.allCallFree front = true) (hmembers : Token.allCallFree members = true)
    (hne : members ≠ [])
    (hdepth : ∀ limit after, resolveTokens host setup root (front ++ [.collection members]) none
      world ≠ .error (.tooDeep limit) after) :
    let whole := resolveTokens host setup root (front ++ [.collection members]) none world
    let part (member : Token) := resolveTokens host setup root (front ++ [member]) none world
    ((∃ v after, whole = .ok v after) ↔ ∀ member ∈ members, ∃ v after, part member = .ok v after) ∧
    (∀ v after, whole = .ok v after → ∃ contributions,
      List.Forall₂ (fun member items => Contributes (part member) items) members contributions ∧
        world.graph.NewListOf v after contributions.flatten) ∧
    (∀ e after, whole = .error e after → ∃ before member rest after',
      members = before ++ member :: rest ∧
        (∀ earlier ∈ before, ∃ v after, part earlier = .ok v after) ∧
        part member = .error e after') ∧
    (∀ e after, front ≠ [] → resolveTokens host setup root front none world = .error e after →
      whole = .error e after) := by
  intro whole part
  have hwalk (last : Token) : resolveTokens host setup root (front ++ [last]) none =
      walkFrom host setup ⟨root, []⟩ none 0 (front ++ [last]) :=
    resolveTokens_of_ne_nil (List.append_ne_nil_of_right_ne_nil _ (List.cons_ne_nil _ _)) _ _
  have habreast : world.graph.Abreast world.graph world.graph ⟨root, []⟩ ⟨root, []⟩ :=
    ⟨.refl _, .refl _, .item (.value hroot), .nil⟩
  have hparts : Concatenates members part world.graph.NewListOf whole := by
    have hcollection := walkFrom_collection host 0 hclosed harguments front hfront hne hmembers
      habreast
    simp only [← hwalk] at hcollection
    exact hcollection
  have hdeep : ∀ e after, whole = .error e after → ¬ e.IsTooDeep := by
    intro e after herror hdeep
    cases e with
    | tooDeep limit => exact hdepth limit after herror
    | _ => exact hdeep
  refine ⟨hparts.exists_ok_iff hdeep, fun v after hok => ?_, fun e after herror => ?_,
    fun e after hfront herror => ?_⟩
  · rw [hok] at hparts
    exact hparts.of_ok
  · rw [herror] at hparts
    exact hparts.of_error (hdeep e after herror)
  · rw [resolveTokens_of_ne_nil hfront] at herror
    exact (congrFun (hwalk _) world).trans (walkFrom_concat_of_error host herror _)

end

/-- A pattern, which finds a list, and a key that is computed from the root. -/
theorem resolveTokens_collection_of_pattern :
    let document := Graph.addJson {}
      (.object [("a", .object [("x", .bool true), ("y", .null)]), ("k", .string "y")])
    let world : World Unit := ⟨document.2, ()⟩
    let setup : Setup := { maxDepth := 4 }
    let front : List Token := [.word "a"]
    let members : List Token :=
      [.modified "*" {}, .container .evalProperty [.modified "k" { root := 1 }]]
    world.graph.Closed ∧ world.graph.Holds document.1 ∧ (∀ v ∈ setup.arguments, world.graph.Holds v) ∧
      Token.allCallFree front = true ∧ Token.allCallFree members = true ∧ members ≠ [] ∧
      ∃ v after, resolveTokens Host.none setup document.1 (front ++ [.collection members]) none world =
          .ok v after ∧
        after.graph.items? v = some [.boolean true, .null, .null] ∧
        ∀ member ∈ members, ∃ v after,
          resolveTokens Host.none setup document.1 (front ++ [member]) none world = .ok v after := by
  intro document world setup front members
  have hdocument := Graph.closed_empty.addJson
    (.object [("a", .object [("x", .bool true), ("y", .null)]), ("k", .string "y")])
  have hroot : world.graph.Holds document.1 := hdocument.holds _ List.mem_cons_self
  have harguments : ∀ v ∈ setup.arguments, world.graph.Holds v := nofun
  have hfront : Token.allCallFree front = true := by decide
  have hmembers : Token.allCallFree members = true := by decide
  have hne : members ≠ [] := List.cons_ne_nil _ _
  obtain ⟨v, after, hread, hitems⟩ : ∃ v after, resolveTokens Host.none setup document.1
      (front ++ [.collection members]) none world = .ok v after ∧
        after.graph.items? v = some [.boolean true, .null, .null] := ⟨_, _, rfl, rfl⟩
  have hdepth : ∀ limit after', resolveTokens Host.none setup document.1
      (front ++ [.collection members]) none world ≠ .error (.tooDeep limit) after' := by
    intro limit after' herror
    rw [hread] at herror
    cases herror
  obtain ⟨hiff, -⟩ := resolveTokens_collection hdocument.closed hroot harguments hfront hmembers
    hne hdepth
  exact ⟨hdocument.closed, hroot, harguments, hfront, hmembers, hne, v, after, hread, hitems,
    hiff.mp ⟨v, after, hread⟩⟩

end GraphPath
