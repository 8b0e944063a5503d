import GraphPath.Proofs.Resolve.OnStack
import GraphPath.Proofs.Resolve.StepFailures

/-! # The stack of values

Resolving a token tree on a stack (`OnStack.resolve`) is resolving it on a trail: the trail is the
stack with its root kept apart, the newest value first (`Trail.stack`).  This is carried along the
tokens together with what holds of the record (`Tracks`).  Without its record every part of a
resolution on a stack does what the same part of a resolution on a trail does, and whatever it
records is sound.

**So at every step of every walk of a resolution, the stack begins with the root that was resolved
from and ends with the value that the walk has come to** (`resolveTokens_on_stack`).  No index on
it is ever out of bounds, modifiers go back past the root exactly where the stack ends, and a root
modifier leads to the root however deeply its walk is nested.
-/

namespace GraphPath

/-! ## Trails as stacks -/

namespace Trail
variable (trail : Trail)

/-- The values on a trail as a stack. -/
def stack : List Value := trail.values.reverse

theorem stack_eq : trail.stack = trail.root :: trail.steps.reverse := by
  simp [stack, values]

@[simp] theorem head?_stack : trail.stack.head? = some trail.root := by
  rw [stack_eq, List.head?_cons]

@[simp] theorem getLast?_stack : trail.stack.getLast? = some trail.current := by
  rw [stack, List.getLast?_reverse, List.head?_eq_getElem?]
  exact trail.back?_zero

theorem stack_push (v : Value) : (trail.push v).stack = trail.stack ++ [v] := by
  simp [stack_eq, push]

theorem stack_restart : trail.restart.stack = trail.stack.take 1 := by
  simp [stack_eq, restart]

/-- A trail is known by its stack. -/
theorem eq_of_stack : (⟨trail.root, trail.stack.tail.reverse⟩ : Trail) = trail := by
  simp [stack_eq]

variable {trail} {n : Nat}

/-- The value that parent modifiers count back to. -/
theorem back?_of_lt (hn : n < trail.stack.length) :
    trail.back? n = trail.stack[trail.stack.length - 1 - n]? := by
  rw [back?, ← List.reverse_reverse trail.values, ← stack, List.getElem?_reverse hn]

/-- The stack ends there. -/
theorem back?_of_le (hn : trail.stack.length ≤ n) : trail.back? n = none := by
  rw [stack_eq, List.length_cons, List.length_reverse] at hn
  exact (trail.back?_eq_none_iff n).mpr hn

end Trail

/-! ## Sound records -/

/-- An index is within the bounds of the stack that it is looked at on. -/
def Access.InBounds (access : Access) : Prop :=
  0 ≤ access.index ∧ access.index < access.stack.length

section
variable {ε : Type}

/-- **A step has been taken from a sound stack**: it begins with the root and ends with the context,
and what came of the step is what comes of it with the same values as a trail. -/
structure Visit.Sound (host : Host ε) (setup : Setup) (root : Value) (visit : Visit ε) : Prop where
  head : visit.stack.head? = some root
  last : visit.stack.getLast? = some visit.context
  result : visit.result = (Prod.fst <$> step host setup ⟨root, visit.stack.tail.reverse⟩ visit.new?
    visit.vivify visit.level visit.token) visit.before

/-- A record without a step from another stack, and without an index out of bounds. -/
structure Recorded.Sound (host : Host ε) (setup : Setup) (root : Value) (record : Recorded ε) :
    Prop where
  visits : ∀ visit ∈ record.visits, visit.Sound host setup root
  accesses : ∀ access ∈ record.accesses, access.InBounds

/-- Nothing recorded yet, nothing wrong. -/
theorem Recorded.Sound.unrecorded {host : Host ε} {setup : Setup} {root : Value} (world : World ε) :
    world.unrecorded.host.Sound host setup root where
  visits _ hvisit := absurd hvisit List.not_mem_nil
  accesses _ haccess := absurd haccess List.not_mem_nil

/-- **A computation that keeps a record tracks one that keeps none**: without its record it does
the same, and what it records is sound. -/
structure Tracks (host : Host ε) (setup : Setup) (root : Value) {α : Type}
    (x : Resolve (Recorded ε) α) (y : Resolve ε α) : Prop where
  seen : SeenAs Recorded.host x y
  sound : ∀ world, world.host.Sound host setup root →
    (worldAfter (x world)).host.Sound host setup root

/-! ## Keeping a record -/

/-- A result, with its trail as a stack. -/
def onStack (result : Value × Trail) : Value × List Value := (result.1, result.2.stack)

namespace Tracks
variable {host : Host ε} {setup : Setup} {root : Value} {α α' β : Type}

protected theorem pure (a : α) : Tracks host setup root (Pure.pure a) (Pure.pure a) :=
  ⟨fun _ => rfl, fun _ h => h⟩

protected theorem throw (e : PathError) :
    Tracks host setup root (throw e : Resolve (Recorded ε) α) (throw e) :=
  ⟨fun _ => rfl, fun _ h => h⟩

protected theorem run (edit : Edit α) : Tracks host setup root edit.run edit.run := by
  refine ⟨SeenAs.run edit, ?_⟩
  intro world hworld
  unfold Edit.run
  split <;> exact hworld

/-- Both succeed or both fail, and the worlds that they leave differ in the record alone. -/
theorem cases {h : α' → α} {x : Resolve (Recorded ε) α} {y : Resolve ε α'}
    (hx : Tracks host setup root x (h <$> y)) (world : World (Recorded ε)) :
    (∃ a after, x world = .ok (h a) after ∧
      y (world.seenAs Recorded.host) = .ok a (after.seenAs Recorded.host)) ∨
    ∃ e after, x world = .error e after ∧
      y (world.seenAs Recorded.host) = .error e (after.seenAs Recorded.host) := by
  have hseen := hx.seen world
  rw [map_eq_pure_bind] at hseen
  cases hy : y (world.seenAs Recorded.host) with
  | ok a after =>
    rw [bind_of_ok hy] at hseen
    cases hworld : x world with
    | ok b after' =>
      rw [hworld] at hseen
      cases hseen
      exact Or.inl ⟨a, after', rfl, rfl⟩
    | error e after' =>
      rw [hworld] at hseen
      cases hseen
  | error e after =>
    rw [bind_of_error hy] at hseen
    cases hworld : x world with
    | ok b after' =>
      rw [hworld] at hseen
      cases hseen
    | error e' after' =>
      rw [hworld] at hseen
      cases hseen
      exact Or.inr ⟨e, after', rfl, rfl⟩

/-- One thing behind the other, the first of which answers with the same in another form. -/
theorem bind_map {h : α' → α} {x : Resolve (Recorded ε) α} {y : Resolve ε α'}
    {f : α → Resolve (Recorded ε) β} {f' : α' → Resolve ε β}
    (hx : Tracks host setup root x (h <$> y))
    (hf : ∀ a world world', y world = .ok a world' → Tracks host setup root (f (h a)) (f' a)) :
    Tracks host setup root (x >>= f) (y >>= f') := by
  constructor
  · intro world
    rcases hx.cases world with ⟨a, after, hx, hy⟩ | ⟨e, after, hx, hy⟩
    · rw [bind_of_ok hx, bind_of_ok hy]
      exact (hf a _ _ hy).seen after
    · rw [bind_of_error hx, bind_of_error hy]
      rfl
  · intro world hworld
    have hafter := hx.sound world hworld
    rcases hx.cases world with ⟨a, after, hx, hy⟩ | ⟨e, after, hx, hy⟩
    · rw [hx] at hafter
      rw [bind_of_ok hx]
      exact (hf a _ _ hy).sound after hafter
    · rw [hx] at hafter
      rw [bind_of_error hx]
      exact hafter

protected theorem bind {x : Resolve (Recorded ε) α} {y : Resolve ε α}
    {f : α → Resolve (Recorded ε) β} {f' : α → Resolve ε β} (hx : Tracks host setup root x y)
    (hf : ∀ a, Tracks host setup root (f a) (f' a)) :
    Tracks host setup root (x >>= f) (y >>= f') := by
  rw [← id_map y] at hx
  exact hx.bind_map fun a _ _ _ => hf a

/-- Something in front that is only looked up. -/
theorem bind_of_pure {x : Resolve (Recorded ε) α} {a : α} {f : α → Resolve (Recorded ε) β}
    {y : Resolve ε β} (hx : Tracks host setup root x (Pure.pure a))
    (hf : Tracks host setup root (f a) y) : Tracks host setup root (x >>= f) y := by
  rw [← id_map (Pure.pure a)] at hx
  have hbind : Tracks host setup root (x >>= f) (Pure.pure a >>= fun _ => y) := by
    refine hx.bind_map ?_
    rintro _ _ _ ⟨⟩
    exact hf
  rwa [pure_bind] at hbind

protected theorem enter (tokens : List Token) (level : Nat) :
    Tracks host setup root (enter setup tokens level) (enter setup tokens level) := by
  unfold enter
  split
  · exact .throw _
  · split
    · exact .throw _
    · exact .pure ()

protected theorem call (f : Callable) (receiver : Value) (arguments : List Value) :
    Tracks host setup root (call host.recorded f receiver arguments)
      (call host f receiver arguments) := by
  unfold call
  split
  · exact .run _
  · constructor
    · intro world
      unfold Host.recorded
      cases host f receiver arguments (world.seenAs Recorded.host) <;> rfl
    · intro world hworld
      unfold Host.recorded
      cases host f receiver arguments (world.seenAs Recorded.host) <;>
        exact ⟨hworld.visits, hworld.accesses⟩

/-- A look within the bounds. -/
theorem look {stack : List Value} {index : Int} {v : Value}
    (hbounds : (⟨stack, index⟩ : Access).InBounds) (hv : stack[index.toNat]? = some v) :
    Tracks host setup root (GraphPath.look stack index) (Pure.pure v) := by
  constructor
  · intro world
    rw [GraphPath.look, hv]
    rfl
  · intro world hworld
    refine ⟨hworld.visits, ?_⟩
    intro access haccess
    rcases List.mem_cons.mp haccess with rfl | haccess
    · exact hbounds
    · exact hworld.accesses access haccess

/-- A step from a sound stack may be recorded. -/
theorem visit {trail : Trail} (hroot : trail.root = root) {new? : Option Value} {vivify : Bool}
    {level : Nat} {token : Token} {x : Resolve (Recorded ε) (Value × List Value)}
    (hx : Tracks host setup root x
      (onStack <$> step host setup trail new? vivify level token)) :
    Tracks host setup root
      (GraphPath.visit ⟨trail.current, trail.stack, new?, vivify, level, token⟩ x)
      (onStack <$> step host setup trail new? vivify level token) := by
  have htrail : (⟨root, trail.stack.tail.reverse⟩ : Trail) = trail := by
    rw [← hroot]
    exact trail.eq_of_stack
  have hhead : trail.stack.head? = some root := by
    rw [← hroot]
    exact trail.head?_stack
  constructor
  · intro world
    rw [hx.seen world]
    unfold GraphPath.visit
    cases x world <;> rfl
  · intro world hworld
    have hafter := hx.sound world hworld
    unfold GraphPath.visit
    rcases hx.cases world with ⟨a, after, hx, hy⟩ | ⟨e, after, hx, hy⟩
    · rw [hx] at hafter ⊢
      refine ⟨?_, hafter.accesses⟩
      intro visit hvisit
      rcases List.mem_cons.mp hvisit with rfl | hvisit
      · refine ⟨hhead, trail.getLast?_stack, ?_⟩
        dsimp only
        rw [htrail, map_eq_pure_bind, bind_of_ok hy]
        rfl
      · exact hafter.visits visit hvisit
    · rw [hx] at hafter ⊢
      refine ⟨?_, hafter.accesses⟩
      intro visit hvisit
      rcases List.mem_cons.mp hvisit with rfl | hvisit
      · refine ⟨hhead, trail.getLast?_stack, ?_⟩
        dsimp only
        rw [htrail, map_eq_pure_bind, bind_of_error hy]
      · exact hafter.visits visit hvisit

end Tracks

/-! ## Every step -/

section
variable {host : Host ε} {setup : Setup} {root : Value} {trail : Trail}

/-- Going back is the same on the stack, and stays within its bounds. -/
theorem tracks_back {trail : Trail} {n : Nat} {v : Value} (hv : trail.back? n = some v) :
    Tracks host setup root (OnStack.back trail.current trail.stack n) (pure v) := by
  unfold OnStack.back
  by_cases hn : 0 < n
  · have hlt : n < trail.stack.length := by
      apply Nat.lt_of_not_le
      intro hle
      rw [Trail.back?_of_le hle] at hv
      cases hv
    rw [if_pos hn, if_neg (by omega)]
    refine .look ⟨by dsimp only; omega, by dsimp only; omega⟩ ?_
    rw [← hv, Trail.back?_of_lt hlt]
    congr 1
    omega
  · obtain rfl : n = 0 := by omega
    rw [trail.back?_zero] at hv
    cases hv
    rw [if_neg hn]
    exact .pure _

/-- Modifiers lead to the same value, or as far past the root. -/
theorem tracks_select (trail : Trail) (modifiers : Modifiers) :
    Tracks host setup root (OnStack.select trail.current trail.stack modifiers)
      (onStack <$> (Edit.askFor fun _ => trail.select modifiers).run) := by
  have hpos : 0 < trail.stack.length := by
    rw [trail.stack_eq]
    exact Nat.zero_lt_succ _
  unfold OnStack.select Trail.select
  by_cases hpast : trail.stack.length ≤ modifiers.parent
  · rw [Trail.back?_of_le hpast, OnStack.back, if_pos (by omega), if_pos hpast]
    exact .throw _
  · obtain ⟨v, hv⟩ : ∃ v, trail.back? modifiers.parent = some v := by
      rw [Trail.back?_of_lt (by omega), List.getElem?_eq_getElem (by omega)]
      exact ⟨_, rfl⟩
    rw [hv]
    by_cases hroot : 0 < modifiers.root
    · have hfirst : (trail.stack.take 1)[(0 : Int).toNat]? = some trail.root := by
        rw [trail.stack_eq]
        rfl
      have hbounds : (⟨trail.stack.take 1, 0⟩ : Access).InBounds := by
        refine ⟨Int.le_refl 0, ?_⟩
        simp only [List.length_take]
        omega
      simp only [if_pos hroot]
      apply (tracks_back hv).bind_of_pure
      apply (Tracks.look hbounds hfirst).bind_of_pure
      rw [← trail.stack_restart]
      exact .pure _
    · simp only [if_neg hroot]
      apply (tracks_back hv).bind_of_pure
      exact .pure _

theorem tracks_receiver (trail : Trail) :
    Tracks host setup root (OnStack.receiver trail.stack) (pure trail.receiver) := by
  unfold OnStack.receiver Trail.receiver
  split
  · rename_i hlength
    rw [Trail.back?_of_lt (by omega), List.getElem?_eq_getElem (by omega)]
    refine .look ⟨by dsimp only; omega, by dsimp only; omega⟩ ?_
    rw [List.getElem?_eq_getElem (by omega)]
    congr 2
    omega
  · rename_i hlength
    rw [Trail.back?_of_le (by omega)]
    exact .pure _

/-- A step by a modified word goes where its modifiers lead, and works there. -/
theorem Step.byModified_eq_onTarget (trail : Trail) (word : String) (modifiers : Modifiers)
    (new? : Option Value) :
    byModified setup trail word modifiers new? = (do
      let reached ← Edit.askFor fun _ => trail.select modifiers
      let result ← onTarget setup reached.1 word modifiers new?
      pure (result, reached.2)) := by
  rw [byModified_eq]
  unfold onTarget
  simp only [bind_assoc]

/-- **A step leaves its trail as it is, or cuts it down to its root.** -/
theorem step_snd {new? : Option Value} {vivify : Bool} {level : Nat} {token : Token}
    {world world' : World ε} {result : Value} {trail trail' : Trail}
    (h : step host setup trail new? vivify level token world = .ok (result, trail') world') :
    trail' = trail ∨ trail' = trail.restart := by
  match token with
  | .word key => exact Or.inl (step_word_eq_ok h).1
  | .modified word modifiers =>
    obtain ⟨graph, hmodified, -⟩ := step_modified_eq_ok h
    obtain ⟨target, key, hselect, -⟩ := Step.byModified_eq_ok hmodified
    rw [Trail.select] at hselect
    split at hselect
    · cases hselect
    · split at hselect
      · cases hselect
        exact Or.inr rfl
      · cases hselect
        exact Or.inl rfl
  | .collection members => exact Or.inl (step_collection_eq_ok h).1
  | .container .call tree => exact Or.inl (step_call_eq_ok h).1
  | .container .evalProperty tree => exact Or.inl (step_computed_eq_ok h).1
  | .container .property tree | .container .quote tree =>
    exact Or.inl (step_path_eq_ok (by exact trivial) h).1

theorem root_of_step {new? : Option Value} {vivify : Bool} {level : Nat} {token : Token}
    {world world' : World ε} {result : Value} {trail trail' : Trail}
    (h : step host setup trail new? vivify level token world = .ok (result, trail') world') :
    trail'.root = trail.root := by
  rcases step_snd h with rfl | rfl <;> rfl

theorem tracks_enterAlternative (level : Nat) (member : Token) :
    Tracks host setup root (enterAlternative setup level member)
      (enterAlternative setup level member) := by
  rcases enterAlternative_cases member with ⟨-, henter⟩ | ⟨-, henter⟩
  · rw [henter, henter]
    exact .enter _ _
  · rw [henter, henter]
    exact .pure ()

mutual

/-- **A step on a stack tracks the same step on a trail.** -/
theorem tracks_step {trail : Trail} (hroot : trail.root = root) (new? : Option Value)
    (vivify : Bool) (level : Nat) (token : Token) :
    Tracks host setup root
      (OnStack.step host setup trail.current trail.stack new? vivify level token)
      (onStack <$> step host setup trail new? vivify level token) := by
  match token with
  | .word key =>
    rw [OnStack.step, step, map_bind]
    exact (Tracks.run _).bind fun result => .pure _
  | .modified word modifiers =>
    rw [OnStack.step, step, Step.byModified_eq_onTarget, Edit.run_bind, map_bind]
    refine (tracks_select trail modifiers).bind_map ?_
    rintro ⟨target, trail'⟩ world world' -
    rw [Edit.run_bind, map_bind]
    refine (Tracks.run _).bind ?_
    intro result
    exact .pure _
  | .collection members =>
    rw [OnStack.step, step, map_bind]
    refine (tracks_alternatives hroot new? level members).bind ?_
    intro results
    rw [map_bind]
    exact (Tracks.run _).bind fun result => .pure _
  | .container .call tree =>
    cases new? with
    | some v =>
      rw [OnStack.step_call_some, step_call_some]
      exact .throw _
    | none =>
      by_cases hcallable : ∃ f, trail.current = .callable f
      · rcases hcallable with ⟨f, hcurrent⟩
        rw [step_call_callable hcurrent, hcurrent, OnStack.step_call_callable, map_bind]
        have harguments : Tracks host setup root
            (OnStack.callArguments host setup (.callable f) trail.stack level tree)
            (callArguments host setup trail level tree) := by
          unfold OnStack.callArguments callArguments
          split
          · exact .pure _
          · refine (Tracks.enter tree (level + 1)).bind ?_
            intro _
            rw [← hcurrent]
            refine (tracks_walkFrom hroot none (level + 1) tree).bind ?_
            intro interior
            exact .run _
        refine harguments.bind ?_
        intro arguments
        rw [map_bind]
        refine (tracks_receiver trail).bind_of_pure ?_
        refine (Tracks.call f _ arguments).bind ?_
        intro result
        exact .pure _
      · rw [OnStack.step_call_of_not_callable (not_exists.mp hcallable),
          step_call_of_not_callable (not_exists.mp hcallable), map_bind]
        refine (Tracks.run _).bind ?_
        intro kind
        exact .throw _
  | .container .evalProperty tree =>
    rw [OnStack.step, step, map_bind]
    refine (Tracks.enter tree (level + 1)).bind ?_
    intro _
    rw [map_bind]
    refine (tracks_walkFrom hroot none (level + 1) tree).bind ?_
    intro computed
    rw [map_bind]
    refine (Tracks.run _).bind ?_
    intro key
    rw [map_bind]
    exact (Tracks.run _).bind fun result => .pure _
  | .container .property tree | .container .quote tree =>
    rw [OnStack.step_path_eq (by exact trivial), step_path_eq (by exact trivial), map_bind]
    refine (Tracks.enter tree (level + 1)).bind ?_
    intro _
    rw [map_bind]
    refine (tracks_walkFrom hroot new? (level + 1) tree).bind ?_
    intro result
    exact .pure _

theorem tracks_alternatives {trail : Trail} (hroot : trail.root = root) (new? : Option Value)
    (level : Nat) (members : List Token) :
    Tracks host setup root
      (OnStack.alternatives host setup trail.current trail.stack new? level members)
      (alternatives host setup trail new? level members) := by
  match members with
  | [] =>
    rw [OnStack.alternatives, alternatives]
    exact .pure _
  | member :: rest =>
    have htaken := tracks_step hroot new? false (alternativeLevel level member) member
    have hmember : Tracks host setup root
        (OnStack.alternative host setup trail.current trail.stack new? level member)
        (onStack <$> alternative host setup trail new? level member) := by
      unfold OnStack.alternative alternative
      rw [map_bind]
      refine (tracks_enterAlternative level member).bind ?_
      intro _
      dsimp only
      split
      case h_5 => exact htaken
      all_goals exact htaken.visit hroot
    rw [OnStack.alternatives_cons, alternatives_cons]
    refine hmember.bind_map ?_
    intro result world world' _
    refine (Tracks.run _).bind ?_
    intro results
    refine (tracks_alternatives hroot new? level rest).bind ?_
    intro others
    exact .pure _

/-- **A walk on a stack tracks the same walk on a trail.** -/
theorem tracks_walkFrom {trail : Trail} (hroot : trail.root = root) (new? : Option Value)
    (level : Nat) (tokens : List Token) :
    Tracks host setup root
      (OnStack.walkFrom host setup trail.current trail.stack new? level tokens)
      (walkFrom host setup trail new? level tokens) := by
  match tokens with
  | [] =>
    rw [OnStack.walkFrom, walkFrom]
    exact .pure _
  | token :: rest =>
    rw [OnStack.walkFrom, walkFrom]
    refine ((tracks_step hroot _ _ level token).visit hroot).bind_map ?_
    rintro ⟨result, trail'⟩ world world' hstep
    have hnext : (trail'.push result).root = root := (root_of_step hstep).trans hroot
    have hpush := tracks_walkFrom hnext new? level rest
    rwa [trail'.stack_push] at hpush

end

/-- **A resolution on a stack tracks the resolution on a trail.** -/
theorem tracks_resolve (host : Host ε) (setup : Setup) (root : Value) (tokens : List Token)
    (new? : Option Value) :
    Tracks host setup root (OnStack.resolve host setup root tokens new?)
      (resolveTokens host setup root tokens new?) := by
  unfold OnStack.resolve resolveTokens
  refine (Tracks.enter tokens 0).bind ?_
  intro _
  have hstart : (⟨root, []⟩ : Trail).root = root := rfl
  exact tracks_walkFrom hstart new? 0 tokens

/-! ## Modified words -/

/-- A modified word with as many parent modifiers as there are values on the stack goes back past
the root. -/
theorem step_past_root {word : String} {modifiers : Modifiers}
    (hpast : trail.stack.length ≤ modifiers.parent) (new? : Option Value) (vivify : Bool)
    (level : Nat) (world : World ε) :
    step host setup trail new? vivify level (.modified word modifiers) world =
      .error (.unresolved (.parentPastRoot modifiers.parent)) world := by
  rw [step, Step.byModified_eq_onTarget, Trail.select, Trail.back?_of_le hpast]
  rfl

/-- With fewer of them it works on a value on the stack, on the root if it has a root modifier. -/
theorem exists_target (host : Host ε) (setup : Setup) {word : String} {modifiers : Modifiers}
    (hlt : modifiers.parent < trail.stack.length) (new? : Option Value) (vivify : Bool)
    (level : Nat) :
    ∃ target, (0 < modifiers.root → target = trail.root) ∧
      (Prod.fst <$> step host setup trail new? vivify level (.modified word modifiers) :
        Resolve ε Value) = (Step.onTarget setup target word modifiers new?).run := by
  have hselect : ∃ reached, trail.select modifiers = .ok reached ∧
      (0 < modifiers.root → reached.1 = trail.root) := by
    rw [Trail.select, Trail.back?_of_lt hlt, List.getElem?_eq_getElem (by omega)]
    dsimp only
    split
    · exact ⟨_, rfl, fun _ => rfl⟩
    · rename_i hroot
      exact ⟨_, rfl, fun h => absurd h hroot⟩
  rcases hselect with ⟨⟨target, trail'⟩, hselect, htarget⟩
  refine ⟨target, htarget, ?_⟩
  rw [step, Step.byModified_eq_onTarget, hselect, Edit.askFor_ok, pure_bind, Edit.run_bind,
    map_bind]
  exact bind_pure _

/-- Where a modified word works has nothing to do with going back past the root. -/
theorem Step.onTarget_offStack (target : Value) (word : String) (modifiers : Modifiers)
    (new? : Option Value) : Edit.OffStack (onTarget setup target word modifiers new?) := by
  apply Edit.OffStack.bind
  · exact .askFor fun g => setup.finalKey_offStack g word modifiers
  · intro key
    exact withKey_offStack target key new? setup modifiers

namespace Visit.Sound
variable {visit : Visit ε} {word : String} {modifiers : Modifiers}

/-- A step from a sound stack is a step with the same values as a trail. -/
theorem exists_trail (h : visit.Sound host setup root) :
    ∃ trail : Trail, trail.root = root ∧ trail.stack = visit.stack ∧ visit.result =
      (Prod.fst <$> step host setup trail visit.new? visit.vivify visit.level visit.token)
        visit.before := by
  refine ⟨⟨root, visit.stack.tail.reverse⟩, rfl, ?_, h.result⟩
  rcases List.head?_eq_some_iff.mp h.head with ⟨others, hstack⟩
  rw [hstack, Trail.stack_eq]
  simp

/-- **A modified word goes back past the root exactly if it has as many parent modifiers as there
are values on the stack.** -/
theorem pastRoot_iff (h : visit.Sound host setup root)
    (hword : visit.token = .modified word modifiers) :
    (∃ n after, visit.result = .error (.unresolved (.parentPastRoot n)) after) ↔
      visit.stack.length ≤ modifiers.parent := by
  rcases h.exists_trail with ⟨trail, -, hstack, hresult⟩
  rw [hresult, hword, ← hstack]
  constructor
  · rintro ⟨n, after, hfails⟩
    apply Nat.le_of_not_lt
    intro hlt
    obtain ⟨target, -, htarget⟩ :=
      exists_target host setup hlt visit.new? visit.vivify visit.level
    rw [htarget] at hfails
    exact (Step.onTarget_offStack target word modifiers visit.new?).run _ _ _ hfails n rfl
  · intro hpast
    refine ⟨modifiers.parent, visit.before, ?_⟩
    rw [map_eq_pure_bind, bind_of_error (step_past_root hpast ..)]

/-- **A root modifier looks its word up on the root of the resolution.** -/
theorem result_of_root (h : visit.Sound host setup root)
    (hword : visit.token = .modified word modifiers) (hroot : 0 < modifiers.root)
    (hlt : modifiers.parent < visit.stack.length) :
    visit.result = (Step.onTarget setup root word modifiers visit.new?).run visit.before := by
  rcases h.exists_trail with ⟨trail, htrail, hstack, hresult⟩
  rw [← hstack] at hlt
  obtain ⟨target, htarget, hstep⟩ :=
    exists_target host setup hlt visit.new? visit.vivify visit.level
  rw [hresult, hword, hstep, htarget hroot, htrail]

end Visit.Sound

end

/-- **The stack of a resolution.**  Any resolution is one on a stack, with every step on record if
it succeeds, and values are only taken at indices within bounds.  At every step of every walk the
stack is not empty; the first value on it is the root that was resolved from, and the last one is
the value that the walk has come to; and the step is the step with these values as its trail.  So a
modified word goes back past the root exactly if it has as many parent modifiers as there are values
on the stack, and a root modifier looks its word up on that same root. -/
theorem resolveTokens_on_stack (host : Host ε) (setup : Setup) (root : Value) (tokens : List Token)
    (new? : Option Value) (world : World ε) :
    let run := OnStack.resolve host setup root tokens new? world.unrecorded
    resolveTokens host setup root tokens new? world = resultSeenAs Recorded.host run ∧
    (∀ v after, run = .ok v after → after.host.tokens = Token.stepsAlong tokens) ∧
    (∀ access ∈ (worldAfter run).host.accesses,
      0 ≤ access.index ∧ access.index < access.stack.length) ∧
    ∀ visit ∈ (worldAfter run).host.visits,
      (visit.stack ≠ [] ∧ visit.stack.head? = some root ∧
        visit.stack.getLast? = some visit.context) ∧
      visit.result = (Prod.fst <$> step host setup ⟨root, visit.stack.tail.reverse⟩ visit.new?
        visit.vivify visit.level visit.token) visit.before ∧
      ∀ word modifiers, visit.token = .modified word modifiers →
        ((∃ n after, visit.result = .error (.unresolved (.parentPastRoot n)) after) ↔
          visit.stack.length ≤ modifiers.parent) ∧
        (0 < modifiers.root → modifiers.parent < visit.stack.length →
          visit.result =
            (Step.onTarget setup root word modifiers visit.new?).run visit.before) := by
  intro run
  have htracks := tracks_resolve host setup root tokens new?
  have hseen : resolveTokens host setup root tokens new? world = resultSeenAs Recorded.host run :=
    htracks.seen world.unrecorded
  have hsound : (worldAfter run).host.Sound host setup root :=
    htracks.sound world.unrecorded (.unrecorded world)
  refine ⟨hseen, fun v after => OnStack.tokens_of_resolve, hsound.accesses, ?_⟩
  intro visit hvisit
  have hv := hsound.visits visit hvisit
  have hne : visit.stack ≠ [] := by
    intro hnil
    have hhead := hv.head
    rw [hnil] at hhead
    cases hhead
  refine ⟨⟨hne, hv.head, hv.last⟩, hv.result, ?_⟩
  intro word modifiers hword
  exact ⟨hv.pastRoot_iff hword, hv.result_of_root hword⟩

/-- In a bracket in a collection behind a key: two values are on the stack, and the root modifier
looks its word up on the first of them. -/
theorem resolveTokens_on_stack_in_collection :
    let graph : Graph :=
      { cells := #[.map (.ofList [("a", .container 1), ("k", .integer 5)]),
          .map (.ofList [("b", .integer 1)])] }
    let world : World Unit := ⟨graph, ()⟩
    let setup : Setup := { maxDepth := 256 }
    let root := Value.container 0
    let modifiers : Modifiers := { parent := 1, root := 1 }
    let tokens :=
      [Token.word "a", .collection [.word "b", .container .property [.modified "k" modifiers]]]
    let run := OnStack.resolve Host.none setup root tokens none world.unrecorded
    ∃ visit ∈ (worldAfter run).host.visits,
      visit.token = .modified "k" modifiers ∧ visit.level = 1 ∧
        visit.stack = [root, .container 1] ∧ visit.stack.head? = some root ∧
        visit.stack.getLast? = some visit.context ∧
        ¬ (∃ n after, visit.result = .error (.unresolved (.parentPastRoot n)) after) ∧
        visit.result = (Step.onTarget setup root "k" modifiers none).run visit.before ∧
        visit.result = .ok (.integer 5) world := by
  intro graph world setup root modifiers tokens run
  let visit : Visit Unit :=
    { context := .container 1, stack := [root, .container 1], new? := none, vivify := false,
      level := 1, token := .modified "k" modifiers, before := world,
      result := .ok (.integer 5) world }
  have hvisit : visit ∈ (worldAfter run).host.visits :=
    List.mem_cons_of_mem _ List.mem_cons_self
  have hrun := resolveTokens_on_stack Host.none setup root tokens none world
  obtain ⟨⟨-, hhead, hlast⟩, -, hmodified⟩ := hrun.2.2.2 visit hvisit
  obtain ⟨hpast, hroot⟩ := hmodified "k" modifiers rfl
  refine ⟨visit, hvisit, rfl, rfl, rfl, hhead, hlast, ?_, hroot (by decide) (by decide), rfl⟩
  intro hfails
  exact absurd (hpast.mp hfails) (by decide)

end

end GraphPath
