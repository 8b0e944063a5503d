import GraphPath.Proofs.Resolve.LastStep

/-! # The receiver of a call

A callable carries no owner.  What it is called on is found out from the trail, where the
value one place before the callable is taken for the value that the callable was found on
(`Trail.receiver_push`).  For a plain word and for a computed key this is so, and a root
modifier cuts the trail down to make it so.  A parent modifier leaves the trail as it is.

**A callable that is found on a value and called next is called on this value, unless the word
has gone back along the trail for it** (`walkFrom_call`); then it is called on the value that
the word has gone back from.
-/

namespace GraphPath

/-- **A callable is found on a value under a key**: its own one, or a method that it has. -/
inductive Graph.Finds (g : Graph) (target : Value) (key : String) : Callable → Graph → Prop
  /-- The value has the callable itself. -/
  | own {f : Callable} (hown : g.getKey? target key = some (.callable f)) : Finds g target key f g
  /-- The value lacks the key, which is the name of a method for values of its kind. -/
  | method {method : Method} {f : Callable} {g' : Graph} (hlacks : g.getKey? target key = none)
      (hname : Method.ofName? key = some method)
      (happlies : method.appliesTo (g.kind target) = true)
      (hnew : g.newCallable (.method method) = (.callable f, g')) : Finds g target key f g'

/-- Whether a token looks a key up on a value: a modified word does not if it stands for an
argument. -/
def Token.LooksUp : Token → Prop
  | .word _ | .container .evalProperty _ => True
  | .modified _ modifiers => modifiers.context = 0
  | _ => False

/-- Whether a token goes back along the trail, and does not start again from the root. -/
def Token.goesBack : Token → Bool
  | .modified _ modifiers => 0 < modifiers.parent && modifiers.root == 0
  | _ => false

/-! ## Finding a callable -/

namespace Step
variable {g g' : Graph} {target : Value} {key : String} {f : Callable} {vivify : Bool}

/-- A missing key that is read as a callable is the name of a method. -/
theorem finds_of_missing (hlacks : g.getKey? target key = none)
    (h : missing target key g = .ok (.callable f) g') : g.Finds target key f g' := by
  rw [missing_eq] at h
  cases hintrinsic : g.intrinsic? target key with
  | none =>
    rw [hintrinsic] at h
    dsimp only at h
    split at h <;> cases h
  | some found =>
    obtain ⟨v, g₁⟩ := found
    rw [hintrinsic] at h
    cases h
    unfold Graph.intrinsic? at hintrinsic
    split at hintrinsic
    · obtain ⟨n, -, heq⟩ := Option.map_eq_some_iff.mp hintrinsic
      cases heq
    · split at hintrinsic
      · rename_i method hname
        split at hintrinsic
        · rename_i happlies
          exact .method hlacks hname happlies (Option.some.inj hintrinsic)
        · cases hintrinsic
      · cases hintrinsic

theorem finds_of_byKey (h : byKey target key none vivify g = .ok (.callable f) g') :
    g.Finds target key f g' := by
  cases hkey : g.getKey? target key with
  | some found =>
    rw [byKey_of_getKey? hkey] at h
    cases h
    exact .own hkey
  | none =>
    rw [byKey_of_getKey?_eq_none hkey] at h
    split at h
    · -- a new map is no callable
      obtain ⟨fresh, g₁, hmake, hassign⟩ := exists_of_bind_ok h
      cases hmake
      obtain ⟨_, _, -, hfresh⟩ := exists_of_bind_ok hassign
      cases hfresh
    · exact finds_of_missing hkey h

theorem finds_of_byModifiedKey (h : byModifiedKey target key none g = .ok (.callable f) g') :
    g.Finds target key f g' := by
  cases hkey : g.getKey? target key with
  | some found =>
    rw [byModifiedKey_none_of_getKey? hkey] at h
    cases h
    exact .own hkey
  | none =>
    rw [byModifiedKey_none_of_missing hkey] at h
    split at h
    · -- neither is a new list
      rw [byPattern_none] at h
      cases h
    · exact finds_of_missing hkey h

end Step

/-! ## Where it is called -/

/-- The receiver is the value reached before the callable. -/
theorem Trail.receiver_push (trail : Trail) (v : Value) : (trail.push v).receiver = trail.current := by
  have hback : (trail.push v).back? 1 = trail.back? 0 := rfl
  rw [Trail.receiver, hback, trail.back?_zero]
  rfl

/-- **Modifiers leave their target as the value reached last**, unless they only go back. -/
theorem Trail.current_select {trail trail' : Trail} {word : String} {modifiers : Modifiers}
    {target : Value} (hselect : trail.select modifiers = .ok (target, trail')) :
    trail'.current =
      if (Token.modified word modifiers).goesBack then trail.current else target := by
  unfold Trail.select at hselect
  split at hselect
  · cases hselect
  · rename_i v hback
    split at hselect
    · rename_i hroot
      cases hselect
      have hstays : (Token.modified word modifiers).goesBack = false := by
        simp [Token.goesBack, Nat.ne_of_gt hroot]
      rw [hstays]
      rfl
    · rename_i hroot
      cases hselect
      have hroot : modifiers.root = 0 := Nat.eq_zero_of_not_pos hroot
      by_cases hparent : 0 < modifiers.parent
      · have hback : (Token.modified word modifiers).goesBack = true := by
          simp [Token.goesBack, hparent, hroot]
        rw [hback, if_pos rfl]
      · have hstays : (Token.modified word modifiers).goesBack = false := by
          simp [Token.goesBack, hparent]
        rw [Nat.eq_zero_of_not_pos hparent, trail.back?_zero] at hback
        rw [hstays]
        exact Option.some.inj hback

section
variable {ε : Type} {host : Host ε} {setup : Setup} {trail trail' : Trail} {level : Nat}
  {world world₀ world₁ : World ε} {token : Token} {target : Value} {key : String} {f : Callable}
  {vivify : Bool}

/-- **A step that comes to a callable** has found it on the value that it addresses, and leaves this
value behind for the call, unless it has gone back. -/
theorem step_finds (hlooks : token.LooksUp)
    (haddresses : Addresses host setup trail level world token target key world₀)
    (hstep : step host setup trail none vivify level token world =
      .ok (.callable f, trail') world₁) :
    world₀.graph.Finds target key f world₁.graph ∧
      trail'.current = if token.goesBack then trail.current else target := by
  cases haddresses with
  | word key =>
    obtain ⟨rfl, graph, hkey, rfl⟩ := step_word_eq_ok hstep
    exact ⟨Step.finds_of_byKey hkey, rfl⟩
  | computed hwalk htext =>
    obtain ⟨rfl, computed, world₂, key', graph, hwalk', htext', hkey, rfl⟩ :=
      step_computed_eq_ok hstep
    cases hwalk.symm.trans hwalk'
    cases htext.symm.trans htext'
    exact ⟨Step.finds_of_byKey hkey, rfl⟩
  | @modified word _ modifiers _ selected hselect hfinal =>
    obtain ⟨graph, hmodified, rfl⟩ := step_modified_eq_ok hstep
    -- no context modifier, so that the key is used on the target
    have hcontext : ¬ 0 < modifiers.context := Nat.not_lt.mpr (Nat.le_of_eq hlooks)
    rw [Step.byModified_eq, bind_of_ok (Edit.askFor_eq_ok_iff.mpr ⟨hselect, rfl⟩),
      bind_of_ok (Edit.askFor_eq_ok_iff.mpr ⟨hfinal, rfl⟩), Step.withKey, if_neg hcontext]
      at hmodified
    obtain ⟨result, g₁, hkey, hrest⟩ := exists_of_bind_ok hmodified
    cases hrest
    exact ⟨Step.finds_of_byModifiedKey hkey, Trail.current_select hselect⟩

/-- A call is made with the value reached before the callable, and the walk goes on from its result.
A write cannot end in it. -/
theorem walkFrom_container_call (hcurrent : trail.current = .callable f) (new? : Option Value)
    (level : Nat) (tree rest : List Token) :
    walkFrom host setup trail new? level (.container .call tree :: rest) = (do
      if new?.isSome && rest.isEmpty then throw (PathError.unresolved .writeToCall)
      let arguments ← callArguments host setup trail level tree
      let result ← call host f trail.receiver arguments
      walkFrom host setup (trail.push result) new? level rest) := by
  cases new? with
  | none =>
    rw [walkFrom_cons_none, step_call_callable hcurrent]
    simp only [bind_assoc, pure_bind]
    rfl
  | some v =>
    by_cases hrest : rest = []
    · subst hrest
      rw [walkFrom_last, step_call_some]
      rfl
    · rw [walkFrom_cons_some hrest, step_call_callable hcurrent,
        List.isEmpty_eq_false_iff.mpr hrest]
      simp only [bind_assoc, pure_bind]
      rfl

/-- **A callable that is found on a value and called next is called on this value**, unless the word
has gone back along the trail: then it is called on the value that the word has gone back from.
A write cannot end in a call. -/
theorem walkFrom_call (hlooks : token.LooksUp)
    (haddresses : Addresses host setup trail level world token target key world₀)
    {new? : Option Value}
    (hstep : step host setup trail none (setup.autoVivify && new?.isSome) level token world =
      .ok (.callable f, trail') world₁) (tree rest : List Token) :
    let receiver := if token.goesBack then trail.current else target
    let reached := trail'.push (.callable f)
    world₀.graph.Finds target key f world₁.graph ∧
      walkFrom host setup trail new? level (token :: .container .call tree :: rest) world = (do
        if new?.isSome && rest.isEmpty then throw (PathError.unresolved .writeToCall)
        let arguments ← callArguments host setup reached level tree
        let result ← call host f receiver arguments
        walkFrom host setup (reached.push result) new? level rest) world₁ := by
  intro receiver reached
  obtain ⟨hfinds, hcurrent⟩ := step_finds hlooks haddresses hstep
  have hreceiver : reached.receiver = receiver := (trail'.receiver_push _).trans hcurrent
  have hwalk : walkFrom host setup trail new? level (token :: .container .call tree :: rest) world =
      walkFrom host setup reached new? level (.container .call tree :: rest) world₁ := by
    rw [walkFrom]
    simp only [List.isEmpty_cons, Bool.false_eq_true, if_false, Bool.not_false, Bool.and_true]
    exact bind_of_ok hstep
  refine ⟨hfinds, ?_⟩
  rw [hwalk, walkFrom_container_call rfl, hreceiver]

end

/-- A method of a list that is called on an item of it, from which the word has gone back. -/
theorem walkFrom_call_behind_parent :
    let graph : Graph :=
      { cells := #[.map (.ofList [("xs", .container 1)]), .list [.integer 3, .integer 1]] }
    let world : World Unit := ⟨graph, ()⟩
    let setup : Setup := { maxDepth := 256 }
    let trail : Trail := ⟨.container 0, [.integer 3, .container 1]⟩
    let token := Token.modified "sort" { parent := 1 }
    let found : Graph := { graph with callables := 1 }
    token.LooksUp ∧ Addresses Host.none setup trail 0 world token (.container 1) "sort" world ∧
      graph.Finds (.container 1) "sort" ⟨.method .sort, 0⟩ found ∧
      walkFrom Host.none setup trail none 0 [token, .container .call []] world =
        .error (.unresolved (.wrongReceiver "sort" "list" .integer)) ⟨found, ()⟩ := by
  intro graph world setup trail token found
  have hlooks : token.LooksUp := rfl
  have haddresses : Addresses Host.none setup trail 0 world token (.container 1) "sort" world :=
    .modified rfl rfl
  have hstep : step Host.none setup trail none (setup.autoVivify && (none : Option Value).isSome) 0
      token world = .ok (.callable ⟨.method .sort, 0⟩, trail) ⟨found, ()⟩ := rfl
  obtain ⟨hfinds, hcall⟩ := walkFrom_call hlooks haddresses hstep [] []
  exact ⟨hlooks, haddresses, hfinds, hcall⟩

end GraphPath
