import GraphPath.Proofs.Resolve.Failures

/-! # How a single step may fail

A step by a key, literal or modified, fails because of the key, of the value it is looked up on,
or of the arguments, and a method because of its receiver and its arguments.  None of these has
anything to do with the values that have been passed: going back past the root
(`Failure.parentPastRoot`) comes of parent modifiers alone.
-/

namespace GraphPath

/-- Any failure but that of going back past the root. -/
def Failure.OffStack (failure : Failure) : Prop := ∀ n, failure ≠ .parentPastRoot n

/-- Any error but that of going back past the root. -/
def PathError.OffStack (e : PathError) : Prop := ∀ n, e ≠ .unresolved (.parentPastRoot n)

/-- What may be missing is not missing because of the values that have been passed. -/
def OffStack {α : Type} (x : Except Failure α) : Prop :=
  ∀ failure, x = .error failure → failure.OffStack

section
variable {α β : Type}

theorem OffStack.ok (a : α) : OffStack (.ok a : Except Failure α) := nofun

theorem OffStack.error {failure : Failure} (h : failure.OffStack) :
    OffStack (.error failure : Except Failure α) := by
  rintro _ ⟨⟩
  exact h

theorem OffStack.bind {x : Except Failure α} {f : α → Except Failure β} (hx : OffStack x)
    (hf : ∀ a, OffStack (f a)) : OffStack (x >>= f) := by
  cases x with
  | ok a => exact hf a
  | error failure => exact .error (hx failure rfl)

theorem OffStack.map {x : Except Failure α} (hx : OffStack x) (f : α → β) :
    OffStack (x.map f) := by
  cases x with
  | ok a => exact .ok _
  | error failure => exact .error (hx failure rfl)

/-- An edit that does not fail because of the values that have been passed. -/
def Edit.OffStack (edit : Edit α) : Prop :=
  ∀ g failure g', edit g = .error failure g' → failure.OffStack

namespace Edit.OffStack

theorem pure (a : α) : Edit.OffStack (Pure.pure a : Edit α) := nofun

theorem ask (f : Graph → α) : Edit.OffStack (Edit.ask f) := nofun

theorem make (f : Graph → α × Graph) : Edit.OffStack (Edit.make f) := nofun

theorem fail {failure : Failure} (h : failure.OffStack) :
    Edit.OffStack (Edit.fail failure : Edit α) := by
  rintro _ _ _ ⟨⟩
  exact h

theorem askFor {f : Graph → Except Failure α} (h : ∀ g, GraphPath.OffStack (f g)) :
    Edit.OffStack (Edit.askFor f) := by
  intro g failure g' hfails
  unfold Edit.askFor at hfails
  split at hfails
  · cases hfails
  · rename_i hf
    cases hfails
    exact h g _ hf

theorem attempt {f : Graph → Except Failure (α × Graph)} (h : ∀ g, GraphPath.OffStack (f g)) :
    Edit.OffStack (Edit.attempt f) := by
  intro g failure g' hfails
  unfold Edit.attempt at hfails
  split at hfails
  · cases hfails
  · rename_i hf
    cases hfails
    exact h g _ hf

theorem bind {x : Edit α} {f : α → Edit β} (hx : Edit.OffStack x)
    (hf : ∀ a, Edit.OffStack (f a)) : Edit.OffStack (x >>= f) := by
  intro g failure g' hfails
  cases hrun : x g with
  | ok a g₁ =>
    rw [bind_of_ok hrun] at hfails
    exact hf a g₁ failure g' hfails
  | error failure' g₁ =>
    rw [bind_of_error hrun] at hfails
    cases hfails
    exact hx g _ _ hrun

theorem run {ε : Type} {edit : Edit α} (h : Edit.OffStack edit) :
    Resolve.FailsOnly PathError.OffStack (edit.run : Resolve ε α) := by
  intro world e after hfails
  unfold Edit.run at hfails
  split at hfails
  · cases hfails
  · rename_i hedit
    cases hfails
    rintro n ⟨⟩
    exact h _ _ _ hedit n rfl

end Edit.OffStack

end

/-! ## Keys and arguments -/

namespace Graph
variable (g : Graph)

theorem toKey_offStack (v : Value) : OffStack (g.toKey v) := by
  unfold toKey
  split
  case h_7 => exact .error nofun
  all_goals exact .ok _

theorem setKey_offStack (target : Value) (key : String) (v : Value) :
    OffStack (g.setKey target key v) := by
  cases target with
  | container h =>
    have hset : OffStack ((g.read h).set key v) := by
      unfold Cell.set
      split
      · split
        · exact .error nofun
        · split
          · exact .ok _
          · split
            · exact .ok _
            · exact .error nofun
      · exact .ok _
    rw [setKey]
    split
    · exact .ok _
    · rename_i failure hfails
      exact .error (hset failure hfails)
  | _ => exact .error nofun

theorem toKeys_offStack (values : List Value) : OffStack (g.toKeys values) := by
  unfold toKeys
  induction values with
  | nil => exact .ok []
  | cons v rest ih =>
    rw [List.mapM_cons]
    exact (g.toKey_offStack v).bind fun _ => ih.bind fun _ => .ok _

theorem join_offStack (items args : List Value) : OffStack (g.join items args) := by
  unfold join
  split
  · exact (g.toKeys_offStack items).bind fun _ => .ok _
  · exact (g.toKey_offStack _).bind fun _ => (g.toKeys_offStack items).bind fun _ => .ok _

theorem callMethod_offStack (method : Method) (receiver : Value) (args : List Value) :
    OffStack (g.callMethod method receiver args) := by
  unfold callMethod
  dsimp only
  split
  · split
    case h_7 => exact (g.join_offStack _ _).map _
    case h_8 => exact .error nofun
    all_goals exact .ok _
  · split
    case h_5 => exact .error nofun
    all_goals exact .ok _
  · exact .error nofun

end Graph

theorem Setup.argument_offStack (setup : Setup) (word : String) :
    OffStack (setup.argument word) := by
  unfold argument
  split
  · exact .error nofun
  · exact .error nofun
  · split
    · exact .error nofun
    · exact .ok _

theorem Setup.finalKey_offStack (setup : Setup) (g : Graph) (word : String)
    (modifiers : Modifiers) : OffStack (setup.finalKey g word modifiers) := by
  unfold finalKey
  split
  · split
    · exact g.toKey_offStack _
    · rename_i failure hfails
      exact .error (setup.argument_offStack word failure hfails)
  · exact .ok _

/-! ## Steps -/

namespace Step
variable (target : Value) (key : String) (new? : Option Value)

theorem assign_offStack (v : Value) : Edit.OffStack (Edit.assign target key v) :=
  .attempt fun g => (g.setKey_offStack target key v).map _

theorem noKey_offStack {α : Type} : Edit.OffStack (do
    let kind ← Edit.ask fun g => g.kind target
    Edit.fail (.noKey key kind) : Edit α) :=
  (Edit.OffStack.ask _).bind fun _ => .fail nofun

theorem missing_offStack : Edit.OffStack (missing target key) := by
  refine (Edit.OffStack.ask _).bind fun found? => ?_
  split
  · exact nofun
  · split
    · exact .pure _
    · exact noKey_offStack target key

theorem byKey_offStack (vivify : Bool) : Edit.OffStack (byKey target key new? vivify) := by
  unfold byKey
  split
  · refine (assign_offStack target key _).bind fun _ => (Edit.OffStack.ask _).bind fun has => ?_
    split
    · exact .pure _
    · exact .fail nofun
  · refine (Edit.OffStack.ask _).bind fun found? => ?_
    split
    · exact .pure _
    · split
      · exact (Edit.OffStack.make _).bind fun _ => (assign_offStack target key _).bind fun _ =>
          .pure _
      · exact missing_offStack target key

theorem gather_offStack (keys : List String) : Edit.OffStack (gather target new? keys) := by
  induction keys with
  | nil => exact .pure _
  | cons key rest ih =>
    have hread : Edit.OffStack (do
        let found? ← Edit.ask fun g => g.getKey? target key
        let others ← gather target new? rest
        pure (found?.toList ++ others)) :=
      (Edit.OffStack.ask _).bind fun _ => ih.bind fun _ => .pure _
    cases new? with
    | none => exact hread
    | some v => exact (assign_offStack target key v).bind fun _ => hread

theorem byPattern_offStack (pattern : String) : Edit.OffStack (byPattern target pattern new?) :=
  (Edit.OffStack.ask _).bind fun keys => (gather_offStack target new? keys).bind fun _ => .make _

theorem byModifiedKey_offStack : Edit.OffStack (byModifiedKey target key new?) := by
  refine (Edit.OffStack.ask _).bind fun has => ?_
  split
  · split
    · exact (assign_offStack target key _).bind fun _ => .pure _
    · refine (Edit.OffStack.ask _).bind fun found? => ?_
      split
      · exact .pure _
      · exact noKey_offStack target key
  · split
    · exact byPattern_offStack target new? key
    · split
      · exact missing_offStack target key
      · split
        · exact .pure _
        · exact noKey_offStack target key

/-- **Once its target is known, a step by a modified word has to do with that target only.** -/
theorem withKey_offStack (setup : Setup) (modifiers : Modifiers) :
    Edit.OffStack (withKey setup target key modifiers new?) := by
  unfold withKey
  split
  · split
    · exact .fail nofun
    · exact .askFor fun _ => setup.argument_offStack key
  · exact byModifiedKey_offStack target key new?

end Step

end GraphPath
