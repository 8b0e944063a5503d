import GraphPath.Proofs.Resolve.KeyStep

/-! # What a successful step has done

A step that succeeds has gone through its parts one after the other, and each of them
has succeeded.  Here this is taken apart once for every kind of step, so that whatever
is to be proved about steps can be read off the parts.

Single steps come first: matching a pattern (`byPattern_eq_ok`), and the key and the
target of a modified word (`byModified_eq_ok`).  There are then two ways to use such a
key, reading (`byModifiedKey_none_eq_ok`) and writing (`byModifiedKey_some_eq_ok`).

Tokens follow, one lemma for each kind (`step_word_eq_ok` and its like).  A step goes
on from a part of the trail that it was given (`step_trail`).
-/

namespace GraphPath

/-! ## Single steps -/

namespace Edit
variable {α : Type} {g g' : Graph} {a : α}

theorem askFor_eq_ok_iff {f : Graph → Except Failure α} :
    Edit.askFor f g = .ok a g' ↔ f g = .ok a ∧ g = g' := by
  unfold Edit.askFor
  constructor
  · intro h
    cases hf : f g with
    | ok b =>
      rw [hf] at h
      cases h
      exact ⟨rfl, rfl⟩
    | error failure =>
      rw [hf] at h
      cases h
  · rintro ⟨hf, rfl⟩
    rw [hf]

/-- Asking for something that cannot be missing. -/
theorem askFor_ok (a : α) : Edit.askFor (fun _ => .ok a) = (pure a : Edit α) := rfl

theorem attempt_eq_ok {f : Graph → Except Failure (α × Graph)}
    (h : Edit.attempt f g = .ok a g') : f g = .ok (a, g') := by
  unfold Edit.attempt at h
  cases hf : f g with
  | ok result =>
    rw [hf] at h
    cases h
    rfl
  | error failure =>
    rw [hf] at h
    cases h

end Edit

/-- A value has the keys under which something is found. -/
theorem Graph.hasKey_eq (g : Graph) (target : Value) (key : String) :
    g.hasKey target key = (g.getKey? target key).isSome := by
  cases target with
  | container h => exact (g.read h).has_eq_isSome_get? key
  | _ => rfl

/-- The key that a modified word stands for: its own text, or the argument that it names. -/
def Setup.finalKey (setup : Setup) (g : Graph) (word : String) (modifiers : Modifiers) :
    Except Failure String :=
  if 0 < modifiers.placeholder then
    match setup.argument word with
    | .ok v => g.toKey v
    | .error failure => .error failure
  else .ok word

/-- **Which argument a word names**: the one at its position, counted from one. -/
theorem Setup.argument_eq_ok_iff {setup : Setup} {word : String} {v : Value} :
    setup.argument word = .ok v ↔
      ∃ i, argumentIndex? word = some (i + 1) ∧ setup.arguments[i]? = some v := by
  unfold argument
  constructor
  · intro h
    split at h
    · cases h
    · cases h
    · rename_i i hindex
      split at h
      · cases h
      · rename_i w hargument
        cases h
        exact ⟨i, hindex, hargument⟩
  · rintro ⟨i, hindex, hargument⟩
    simp only [hindex, hargument]

theorem Setup.mem_arguments {setup : Setup} {word : String} {v : Value}
    (h : setup.argument word = .ok v) : v ∈ setup.arguments := by
  obtain ⟨i, -, hargument⟩ := Setup.argument_eq_ok_iff.mp h
  exact List.mem_of_getElem? hargument

/-- Modifiers lead to a value on the trail, and to a part of the trail. -/
theorem Trail.select_eq_ok {trail trail' : Trail} {modifiers : Modifiers} {target : Value}
    (h : trail.select modifiers = .ok (target, trail')) :
    target ∈ trail.values ∧ ∀ v ∈ trail'.values, v ∈ trail.values := by
  have hroot : trail.root ∈ trail.values := List.mem_append_right _ (List.mem_singleton_self _)
  unfold Trail.select at h
  split at h
  · cases h
  · rename_i v hback
    split at h <;> cases h
    · refine ⟨hroot, fun v hv => ?_⟩
      rw [List.mem_singleton.mp hv]
      exact hroot
    · exact ⟨List.mem_of_getElem? hback, fun _ hv => hv⟩

theorem Trail.current_mem (trail : Trail) : trail.current ∈ trail.values :=
  List.mem_of_getElem? trail.back?_zero

/-- The receiver of a call is on the trail, or is nothing at all. -/
theorem Trail.receiver_mem (trail : Trail) :
    trail.receiver ∈ trail.values ∨ trail.receiver = .null := by
  unfold Trail.receiver
  cases hback : trail.back? 1 with
  | none => exact Or.inr rfl
  | some v => exact Or.inl (List.mem_of_getElem? hback)

namespace Step
variable {setup : Setup} {g g' : Graph} {trail trail' : Trail} {target v w : Value}
  {new? : Option Value} {key word pattern : String} {keys : List String} {found : List Value}
  {modifiers : Modifiers}

/-- Gathering without a value to write reads what is there. -/
theorem gather_none (g : Graph) (target : Value) (keys : List String) :
    gather target none keys g = .ok (keys.filterMap (g.getKey? target)) g := by
  induction keys with
  | nil => rfl
  | cons key rest ih =>
    have hask : Edit.ask (fun g => g.getKey? target key) g = .ok (g.getKey? target key) g := rfl
    show (Edit.ask (fun g => g.getKey? target key) >>= fun found? => do
      let others ← gather target none rest
      pure (found?.toList ++ others)) g = _
    rw [bind_of_ok hask, bind_of_ok ih]
    cases hfound : g.getKey? target key with
    | none => rw [List.filterMap_cons_none hfound]; rfl
    | some v => rw [List.filterMap_cons_some hfound]; rfl

/-- Gathering without a value to write only reads. -/
theorem gather_none_eq_ok (hgather : gather target none keys g = .ok found g') :
    g' = g ∧ ∀ v ∈ found, ∃ key, g.getKey? target key = some v := by
  rw [gather_none] at hgather
  cases hgather
  refine ⟨rfl, fun v hv => ?_⟩
  obtain ⟨key, -, hkey⟩ := List.mem_filterMap.mp hv
  exact ⟨key, hkey⟩

/-- **Gathering with a value to write** is one assignment after the other, with a look at the key
behind each. -/
theorem gather_some_induction {P : Graph → Prop} {Q : Value → Prop}
    (hassign : ∀ g key g', P g → Edit.assign target key v g = .ok () g' → P g')
    (hread : ∀ g key w, P g → g.getKey? target key = some w → Q w) (hg : P g)
    (hgather : gather target (some v) keys g = .ok found g') : P g' ∧ ∀ w ∈ found, Q w := by
  induction keys generalizing g found with
  | nil =>
    cases hgather
    exact ⟨hg, nofun⟩
  | cons key rest ih =>
    obtain ⟨⟨⟩, g₁, hdone, hrest⟩ := exists_of_bind_ok hgather
    obtain ⟨found?, g₂, hask, hrest⟩ := exists_of_bind_ok hrest
    obtain ⟨hfound, rfl⟩ := Edit.ask_eq_ok_iff.mp hask
    obtain ⟨others, g₃, hothers, hrest⟩ := exists_of_bind_ok hrest
    cases hrest
    have hg₁ := hassign g key g₁ hg hdone
    obtain ⟨hg', hmem⟩ := ih hg₁ hothers
    refine ⟨hg', fun w hw => ?_⟩
    rcases List.mem_append.mp hw with hw | hw
    · exact hread g₁ key w hg₁ (hfound.trans (Option.mem_toList.mp hw))
    · exact hmem w hw

/-- A step by a pattern gathers what is there, and makes a new list of it. -/
theorem byPattern_eq_ok (hpattern : byPattern target pattern new? g = .ok w g') :
    ∃ keys found g₁, gather target new? keys g = .ok found g₁ ∧
      w = (g₁.newList found).1 ∧ g' = (g₁.newList found).2 := by
  obtain ⟨keys, g₁, hask, hrest⟩ := exists_of_bind_ok hpattern
  obtain ⟨-, rfl⟩ := Edit.ask_eq_ok_iff.mp hask
  obtain ⟨found, g₂, hgather, hrest⟩ := exists_of_bind_ok hrest
  cases hrest
  exact ⟨keys, found, g₂, hgather, rfl, rfl⟩

theorem byPattern_none (g : Graph) (target : Value) (pattern : String) :
    let items := ((g.ownKeys target).filter (Pattern.admits pattern)).filterMap (g.getKey? target)
    byPattern target pattern none g = .ok (g.newList items).1 (g.newList items).2 := by
  intro items
  have hask : Edit.ask (fun g => (g.ownKeys target).filter (Pattern.admits pattern)) g =
      .ok ((g.ownKeys target).filter (Pattern.admits pattern)) g := rfl
  unfold byPattern
  rw [bind_of_ok hask, bind_of_ok (gather_none g target _)]
  rfl

/-- Reading by the key of a modified word. -/
theorem byModifiedKey_none (g : Graph) (target : Value) (key : String) :
    byModifiedKey target key none g = match g.getKey? target key with
      | some found => .ok found g
      | none =>
        if Pattern.isPattern key then byPattern target key none g else missing target key g := by
  have hask : Edit.ask (fun g => g.hasKey target key) g = .ok (g.hasKey target key) g := rfl
  have hlook : Edit.ask (fun g => g.getKey? target key) g = .ok (g.getKey? target key) g := rfl
  unfold byModifiedKey
  rw [bind_of_ok hask, g.hasKey_eq]
  cases hfound : g.getKey? target key with
  | some found =>
    rw [hfound] at hlook
    exact bind_of_ok hlook
  | none =>
    dsimp only [Option.isSome_none]
    rw [if_neg Bool.false_ne_true]
    split <;> rfl

theorem byModifiedKey_none_of_getKey? (hfound : g.getKey? target key = some v) :
    byModifiedKey target key none g = .ok v g := by
  rw [byModifiedKey_none, hfound]

/-- Where the key is missing, it is taken for a pattern if it can be one. -/
theorem byModifiedKey_none_of_missing (hmissing : g.getKey? target key = none) :
    byModifiedKey target key none g =
      if Pattern.isPattern key then byPattern target key none g else missing target key g := by
  rw [byModifiedKey_none, hmissing]

/-- **Reading by the key of a modified word** finds the key, or gathers what a pattern admits, or
reads a missing key. -/
theorem byModifiedKey_none_eq_ok (hstep : byModifiedKey target key none g = .ok w g') :
    (g.getKey? target key = some w ∧ g' = g) ∨
      (Pattern.isPattern key = true ∧ byPattern target key none g = .ok w g') ∨
      missing target key g = .ok w g' := by
  cases hfound : g.getKey? target key with
  | some found =>
    rw [byModifiedKey_none_of_getKey? hfound] at hstep
    cases hstep
    exact Or.inl ⟨rfl, rfl⟩
  | none =>
    rw [byModifiedKey_none_of_missing hfound] at hstep
    split at hstep
    · rename_i hpattern
      exact Or.inr (Or.inl ⟨hpattern, hstep⟩)
    · exact Or.inr (Or.inr hstep)

/-- **Writing by the key of a modified word** gives the key another value if it is there, or writes
what a pattern admits.  On a callable it does nothing but answer with the key. -/
theorem byModifiedKey_some_eq_ok (hstep : byModifiedKey target key (some v) g = .ok w g') :
    (w = v ∧ ∃ h cell, target = .container h ∧ h < g.cells.size ∧
        (g.read h).set key v = .ok cell ∧ g' = g.write h cell) ∨
      (Pattern.isPattern key = true ∧ byPattern target key (some v) g = .ok w g') ∨
      (Pattern.isPattern key = false ∧ target.isCallable = true ∧ w = .string key ∧ g' = g) := by
  obtain ⟨has, g₁, hask, hrest⟩ := exists_of_bind_ok hstep
  obtain ⟨hhas, rfl⟩ := Edit.ask_eq_ok_iff.mp hask
  cases has with
  | true =>
    obtain ⟨⟨⟩, g₂, hassign, hrest⟩ := exists_of_bind_ok hrest
    obtain ⟨h, cell, rfl, hset, rfl⟩ := Edit.assign_eq_ok_iff.mp hassign
    cases hrest
    refine Or.inl ⟨rfl, h, cell, rfl, Nat.lt_of_not_le fun hle => ?_, hset, rfl⟩
    -- a handle of no container has no key
    have hread := Graph.read_of_size_le hle
    rw [Graph.hasKey, hread, Cell.has] at hhas
    split at hhas
    · simp at hhas
    · cases hhas
  | false =>
    dsimp only at hrest
    rw [if_neg Bool.false_ne_true] at hrest
    split at hrest
    · rename_i hpattern
      exact Or.inr (Or.inl ⟨hpattern, hrest⟩)
    · rename_i hpattern
      rw [Bool.not_eq_true] at hpattern
      split at hrest
      · rename_i hcallable
        cases hrest
        exact Or.inr (Or.inr ⟨hpattern, hcallable, rfl, rfl⟩)
      · obtain ⟨kind, g₂, -, hrest⟩ := exists_of_bind_ok hrest
        cases hrest

/-- What a modified word does on the value that its modifiers lead to, once its key is known: it
answers with the argument that the key names, or uses the key there. -/
def withKey (setup : Setup) (target : Value) (key : String) (modifiers : Modifiers)
    (new? : Option Value) : Edit Value :=
  if 0 < modifiers.context then
    if new?.isSome then Edit.fail .writeToArgument else Edit.askFor fun _ => setup.argument key
  else byModifiedKey target key new?

/-- The key of a modified word is found out before it is used. -/
theorem finalKey_bind {β : Type} (setup : Setup) (word : String) (modifiers : Modifiers)
    (use : String → Edit β) :
    (if 0 < modifiers.placeholder then do
        let argument ← Edit.askFor fun _ => setup.argument word
        let key ← Edit.askFor fun g => g.toKey argument
        use key
      else use word) = (do
        let key ← Edit.askFor fun g => setup.finalKey g word modifiers
        use key) := by
  unfold Setup.finalKey
  split
  · cases setup.argument word <;> rfl
  · rfl

/-- **A step by a modified word** goes to the value that its modifiers lead to, finds out its key,
and then works with the two. -/
theorem byModified_eq (setup : Setup) (trail : Trail) (word : String) (modifiers : Modifiers)
    (new? : Option Value) :
    byModified setup trail word modifiers new? = (do
      let reached ← Edit.askFor fun _ => trail.select modifiers
      let key ← Edit.askFor fun g => setup.finalKey g word modifiers
      let result ← withKey setup reached.1 key modifiers new?
      pure (result, reached.2)) := by
  unfold byModified withKey
  refine congrArg _ (funext fun ⟨target, trail'⟩ => ?_)
  dsimp only
  rw [← finalKey_bind]
  simp only [pure_bind]
  -- both ways of finding the key end in the same use of it
  refine ite_congr rfl (fun _ => ?_) (fun _ => ?_)
  · refine congrArg _ (funext fun argument => congrArg _ (funext fun key => ?_))
    split
    · split <;> rfl
    · rfl
  · split
    · split <;> rfl
    · rfl

theorem byModified_eq_ok
    (hstep : byModified setup trail word modifiers new? g = .ok (w, trail') g') :
    ∃ target key, trail.select modifiers = .ok (target, trail') ∧
      setup.finalKey g word modifiers = .ok key ∧
      ((new? = none ∧ setup.argument key = .ok w ∧ g' = g) ∨
        byModifiedKey target key new? g = .ok w g') := by
  rw [byModified_eq] at hstep
  obtain ⟨⟨target, selected⟩, g₁, hask, hrest⟩ := exists_of_bind_ok hstep
  obtain ⟨hselect, rfl⟩ := Edit.askFor_eq_ok_iff.mp hask
  obtain ⟨key, g₂, hask, hrest⟩ := exists_of_bind_ok hrest
  obtain ⟨hfinal, rfl⟩ := Edit.askFor_eq_ok_iff.mp hask
  obtain ⟨result, g₃, hresult, hrest⟩ := exists_of_bind_ok hrest
  cases hrest
  refine ⟨target, key, hselect, hfinal, ?_⟩
  unfold withKey at hresult
  split at hresult
  · cases new? with
    | some v => cases hresult
    | none =>
      have hask : Edit.askFor (fun _ => setup.argument key) g = .ok w g' := hresult
      obtain ⟨hargument, rfl⟩ := Edit.askFor_eq_ok_iff.mp hask
      exact Or.inl ⟨rfl, hargument, rfl⟩
  · exact Or.inr hresult

end Step

/-! ## Parts of a walk -/

section
variable {ε : Type} {host : Host ε} {setup : Setup} {trail trail' : Trail} {new? : Option Value}
  {vivify : Bool} {level : Nat} {world world' : World ε} {v w : Value} {tree rest : List Token}

theorem enter_eq_ok {tokens : List Token} (h : enter setup tokens level world = .ok () world') :
    world' = world := by
  unfold enter at h
  split at h
  · cases h
  · split at h <;> cases h
    rfl

theorem spread_eq_ok {items : List Value} (h : spread v world = .ok items world') :
    items = (world.graph.items? v).getD [v] ∧ world' = world := by
  obtain ⟨graph, hask, rfl⟩ := Edit.exists_of_run_ok h
  obtain ⟨hitems, rfl⟩ := Edit.ask_eq_ok_iff.mp hask
  exact ⟨hitems.symm, rfl⟩

/-- The level at which an alternative of a collection is resolved: one deeper, unless it is a
bracket of its own. -/
def alternativeLevel (level : Nat) : Token → Nat
  | .container .call _ | .word _ | .modified _ _ | .collection _ => level + 1
  | .container _ _ => level

/-- Begin with an alternative. -/
def enterAlternative (setup : Setup) (level : Nat) (member : Token) : Resolve ε Unit :=
  match member with
  | .container .call _ | .word _ | .modified _ _ | .collection _ => enter setup [member] (level + 1)
  | .container _ _ => pure ()

/-- One alternative of a collection. -/
def alternative (host : Host ε) (setup : Setup) (trail : Trail) (new? : Option Value)
    (level : Nat) (member : Token) : Resolve ε (Value × Trail) := do
  enterAlternative setup level member
  step host setup trail new? false (alternativeLevel level member) member

/-- **An alternative is entered as a walk of one step**, one level deeper; or not at all, if it is a
bracket of its own. -/
theorem enterAlternative_cases (member : Token) :
    ((∀ level, alternativeLevel level member = level + 1) ∧
      ∀ (ε : Type) (setup : Setup) (level : Nat),
        (enterAlternative setup level member : Resolve ε Unit) =
          enter setup [member] (level + 1)) ∨
    ((∀ level, alternativeLevel level member = level) ∧
      ∀ (ε : Type) (setup : Setup) (level : Nat),
        (enterAlternative setup level member : Resolve ε Unit) = pure ()) := by
  match member with
  | .word _ | .modified _ _ | .collection _ | .container .call _ =>
    exact Or.inl ⟨fun _ => rfl, fun _ _ _ => rfl⟩
  | .container .evalProperty _ | .container .property _ | .container .quote _ =>
    exact Or.inr ⟨fun _ => rfl, fun _ _ _ => rfl⟩

theorem enterAlternative_eq_ok {member : Token}
    (h : enterAlternative setup level member world = .ok () world') : world' = world := by
  rcases enterAlternative_cases member with ⟨-, henter⟩ | ⟨-, henter⟩
  · rw [henter] at h
    exact enter_eq_ok h
  · rw [henter] at h
    cases h
    rfl

theorem alternatives_cons (trail : Trail) (new? : Option Value) (level : Nat) (member : Token)
    (rest : List Token) :
    alternatives host setup trail new? level (member :: rest) = (do
      let result ← alternative host setup trail new? level member
      let results ← spread result.1
      let others ← alternatives host setup trail new? level rest
      pure (results ++ others)) := by
  rw [alternatives.eq_def]
  dsimp only
  unfold alternative enterAlternative alternativeLevel
  split <;> simp only [bind_assoc, pure_bind]

/-- An alternative is a step by its token. -/
theorem alternative_eq_ok {member : Token} {result : Value × Trail}
    (h : alternative host setup trail new? level member world = .ok result world') :
    step host setup trail new? false (alternativeLevel level member) member world =
      .ok result world' := by
  obtain ⟨⟨⟩, world₁, henter, hstep⟩ := exists_of_bind_ok h
  rwa [enterAlternative_eq_ok henter] at hstep

/-- **Alternatives are taken one by one**, and their results put behind each other. -/
theorem alternatives_cons_eq_ok {member : Token} {results : List Value}
    (h : alternatives host setup trail new? level (member :: rest) world = .ok results world') :
    ∃ result world₁ others,
      alternative host setup trail new? level member world = .ok result world₁ ∧
      alternatives host setup trail new? level rest world₁ = .ok others world' ∧
      results = (world₁.graph.items? result.1).getD [result.1] ++ others := by
  rw [alternatives_cons] at h
  obtain ⟨result, world₁, hmember, h⟩ := exists_of_bind_ok h
  obtain ⟨items, world₂, hspread, h⟩ := exists_of_bind_ok h
  obtain ⟨rfl, rfl⟩ := spread_eq_ok hspread
  obtain ⟨others, world₃, hothers, h⟩ := exists_of_bind_ok h
  cases h
  exact ⟨result, _, others, hmember, hothers, rfl⟩

/-! ## Tokens -/

theorem step_word_eq_ok {key : String}
    (h : step host setup trail new? vivify level (.word key) world = .ok (w, trail') world') :
    trail' = trail ∧ ∃ graph, Step.byKey trail.current key new? vivify world.graph = .ok w graph ∧
      world' = { world with graph } := by
  rw [step] at h
  obtain ⟨result, world₁, hkey, hrest⟩ := exists_of_bind_ok h
  cases hrest
  exact ⟨rfl, Edit.exists_of_run_ok hkey⟩

theorem step_modified_eq_ok {word : String} {modifiers : Modifiers}
    (h : step host setup trail new? vivify level (.modified word modifiers) world =
      .ok (w, trail') world') :
    ∃ graph, Step.byModified setup trail word modifiers new? world.graph =
      .ok (w, trail') graph ∧ world' = { world with graph } := by
  rw [step] at h
  exact Edit.exists_of_run_ok h

theorem step_collection_eq_ok {members : List Token}
    (h : step host setup trail new? vivify level (.collection members) world =
      .ok (w, trail') world') :
    trail' = trail ∧ ∃ results world₁,
      alternatives host setup trail new? level members world = .ok results world₁ ∧
      w = (world₁.graph.newList results).1 ∧
      world' = { world₁ with graph := (world₁.graph.newList results).2 } := by
  rw [step] at h
  obtain ⟨results, world₁, hresults, h⟩ := exists_of_bind_ok h
  obtain ⟨result, world₂, hmake, h⟩ := exists_of_bind_ok h
  cases hmake
  cases h
  exact ⟨rfl, results, world₁, hresults, rfl, rfl⟩

/-- The arguments of a call: the items of what its interior comes to. -/
def callArguments (host : Host ε) (setup : Setup) (trail : Trail) (level : Nat)
    (tree : List Token) : Resolve ε (List Value) :=
  if tree.isEmpty then pure []
  else do
    enter setup tree (level + 1)
    let interior ← walkFrom host setup trail none (level + 1) tree
    spread interior

theorem callArguments_eq_ok {arguments : List Value}
    (h : callArguments host setup trail level tree world = .ok arguments world') :
    (arguments = [] ∧ world' = world) ∨ ∃ interior,
      walkFrom host setup trail none (level + 1) tree world = .ok interior world' ∧
      arguments = (world'.graph.items? interior).getD [interior] := by
  unfold callArguments at h
  split at h
  · cases h
    exact Or.inl ⟨rfl, rfl⟩
  · obtain ⟨⟨⟩, world₁, henter, h⟩ := exists_of_bind_ok h
    rw [enter_eq_ok henter] at h
    obtain ⟨interior, world₂, hwalk, h⟩ := exists_of_bind_ok h
    obtain ⟨rfl, rfl⟩ := spread_eq_ok h
    exact Or.inr ⟨interior, hwalk, rfl⟩

theorem step_call_callable {f : Callable} (hcurrent : trail.current = .callable f) :
    step host setup trail none vivify level (.container .call tree) = (do
      let arguments ← callArguments host setup trail level tree
      let result ← call host f trail.receiver arguments
      pure (result, trail)) := by
  rw [step, hcurrent]
  dsimp only [Option.isSome_none]
  rw [if_neg Bool.false_ne_true]
  unfold callArguments
  split
  · rfl
  · simp only [bind_assoc]

/-- What is no callable cannot be called. -/
theorem step_call_of_not_callable (hcurrent : ∀ f, trail.current ≠ .callable f) :
    step host setup trail none vivify level (.container .call tree) = (do
      let kind ← (Edit.ask fun g => g.kind trail.current).run
      throw (.uncallable (.notCallable kind))) := by
  rw [step]
  cases hvalue : trail.current with
  | callable f => exact absurd hvalue (hcurrent f)
  | _ => rfl

theorem step_call_some (v : Value) :
    step host setup trail (some v) vivify level (.container .call tree) =
      throw (.unresolved .writeToCall) := by
  rw [step]
  rfl

/-- A call is made with the items of what its interior comes to. -/
theorem step_call_eq_ok
    (h : step host setup trail new? vivify level (.container .call tree) world =
      .ok (w, trail') world') :
    trail' = trail ∧ new? = none ∧ ∃ f arguments world₁, trail.current = .callable f ∧
      call host f trail.receiver arguments world₁ = .ok w world' ∧
      ((arguments = [] ∧ world₁ = world) ∨ ∃ interior,
        walkFrom host setup trail none (level + 1) tree world = .ok interior world₁ ∧
        arguments = (world₁.graph.items? interior).getD [interior]) := by
  cases new? with
  | some v =>
    rw [step_call_some] at h
    cases h
  | none =>
    by_cases hcurrent : ∃ f, trail.current = .callable f
    · obtain ⟨f, hcurrent⟩ := hcurrent
      rw [step_call_callable hcurrent] at h
      obtain ⟨arguments, world₁, harguments, h⟩ := exists_of_bind_ok h
      obtain ⟨result, world₂, hcall, h⟩ := exists_of_bind_ok h
      cases h
      exact ⟨rfl, rfl, f, arguments, world₁, hcurrent, hcall, callArguments_eq_ok harguments⟩
    · rw [step_call_of_not_callable (not_exists.mp hcurrent)] at h
      obtain ⟨kind, world₁, -, h⟩ := exists_of_bind_ok h
      cases h

theorem step_computed_eq_ok
    (h : step host setup trail new? vivify level (.container .evalProperty tree) world =
      .ok (w, trail') world') :
    trail' = trail ∧ ∃ computed world₁ key graph,
      walkFrom host setup trail none (level + 1) tree world = .ok computed world₁ ∧
      world₁.graph.toKey computed = .ok key ∧
      Step.byKey trail.current key new? vivify world₁.graph = .ok w graph ∧
      world' = { world₁ with graph } := by
  rw [step] at h
  obtain ⟨⟨⟩, world₀, henter, h⟩ := exists_of_bind_ok h
  rw [enter_eq_ok henter] at h
  obtain ⟨computed, world₁, hwalk, h⟩ := exists_of_bind_ok h
  obtain ⟨key, world₂, hkey, h⟩ := exists_of_bind_ok h
  obtain ⟨graph, hask, rfl⟩ := Edit.exists_of_run_ok hkey
  obtain ⟨htext, rfl⟩ := Edit.askFor_eq_ok_iff.mp hask
  obtain ⟨result, world₃, hresult, h⟩ := exists_of_bind_ok h
  cases h
  obtain ⟨graph, hbyKey, rfl⟩ := Edit.exists_of_run_ok hresult
  exact ⟨rfl, computed, world₁, key, graph, hwalk, htext, hbyKey, rfl⟩

/-- The roles of containers that are paths of their own. -/
def ContainerRole.IsPath : ContainerRole → Prop
  | .property | .quote => True
  | .call | .evalProperty => False

theorem step_path_eq {role : ContainerRole} (hrole : role.IsPath) (trail : Trail)
    (new? : Option Value) (vivify : Bool) (level : Nat) (tree : List Token) :
    step host setup trail new? vivify level (.container role tree) = (do
      enter setup tree (level + 1)
      let result ← walkFrom host setup trail new? (level + 1) tree
      pure (result, trail)) := by
  cases role with
  | call | evalProperty => cases hrole
  | property | quote =>
    rw [step]
    · simp
    · simp

theorem step_path_eq_ok {role : ContainerRole} (hrole : role.IsPath)
    (h : step host setup trail new? vivify level (.container role tree) world =
      .ok (w, trail') world') :
    trail' = trail ∧ tree ≠ [] ∧
      walkFrom host setup trail new? (level + 1) tree world = .ok w world' := by
  rw [step_path_eq hrole] at h
  obtain ⟨⟨⟩, world₀, henter, h⟩ := exists_of_bind_ok h
  have hne : tree ≠ [] := by
    rintro rfl
    unfold enter at henter
    split at henter <;> cases henter
  rw [enter_eq_ok henter] at h
  obtain ⟨result, world₁, hwalk, h⟩ := exists_of_bind_ok h
  cases h
  exact ⟨rfl, hne, hwalk⟩

/-- Only keys are made on the way. -/
theorem step_of_not_key (hword : ∀ key, token ≠ .word key)
    (hcomputed : ∀ tree, token ≠ .container .evalProperty tree) (trail : Trail)
    (new? : Option Value) (vivify : Bool) (level : Nat) :
    step host setup trail new? vivify level token =
      step host setup trail new? false level token := by
  match token with
  | .word key => exact absurd rfl (hword key)
  | .modified word modifiers => rw [step, step]
  | .collection members => rw [step, step]
  | .container .call tree => rw [step, step]
  | .container .evalProperty tree => exact absurd rfl (hcomputed tree)
  | .container .property tree | .container .quote tree =>
    rw [step_path_eq, step_path_eq] <;> exact trivial

/-- **A step goes on from values that were on the trail before.** -/
theorem step_trail {token : Token}
    (h : step host setup trail new? vivify level token world = .ok (w, trail') world') :
    ∀ v ∈ trail'.values, v ∈ trail.values := by
  have hsame : trail' = trail → ∀ v ∈ trail'.values, v ∈ trail.values := fun heq v hv => heq ▸ hv
  match token with
  | .word key => exact hsame (step_word_eq_ok h).1
  | .modified word modifiers =>
    obtain ⟨graph, hmodified, -⟩ := step_modified_eq_ok h
    obtain ⟨target, key, hselect, -⟩ := Step.byModified_eq_ok hmodified
    exact (Trail.select_eq_ok hselect).2
  | .collection members => exact hsame (step_collection_eq_ok h).1
  | .container .call tree => exact hsame (step_call_eq_ok h).1
  | .container .evalProperty tree => exact hsame (step_computed_eq_ok h).1
  | .container .property tree | .container .quote tree =>
    exact hsame (step_path_eq_ok (by exact trivial) h).1

/-! ## Walks -/

/-- A walk that reads takes one step after the other. -/
theorem walkFrom_cons_none (trail : Trail) (level : Nat) (token : Token) (rest : List Token) :
    walkFrom host setup trail none level (token :: rest) = (do
      let result ← step host setup trail none false level token
      walkFrom host setup (result.2.push result.1) none level rest) := by
  rw [walkFrom]
  simp

/-- A walk that reads with one step. -/
theorem walkFrom_singleton (trail : Trail) (level : Nat) (token : Token) :
    walkFrom host setup trail none level [token] = (do
      let result ← step host setup trail none false level token
      pure result.1) := by
  rw [walkFrom_cons_none]
  simp only [walkFrom, Trail.current_push]

/-- The last step of a walk that writes is the one that writes. -/
theorem walkFrom_last (trail : Trail) (v : Value) (level : Nat) (token : Token) :
    walkFrom host setup trail (some v) level [token] = (do
      let result ← step host setup trail (some v) false level token
      pure result.1) := by
  rw [walkFrom]
  simp [walkFrom]

/-- The steps before it look for the way, and may make it. -/
theorem walkFrom_cons_some (hrest : rest ≠ []) (trail : Trail) (v : Value) (level : Nat)
    (token : Token) :
    walkFrom host setup trail (some v) level (token :: rest) = (do
      let result ← step host setup trail none setup.autoVivify level token
      walkFrom host setup (result.2.push result.1) (some v) level rest) := by
  rw [walkFrom, List.isEmpty_eq_false_iff.mpr hrest]
  simp

theorem walkFrom_cons_none_eq_ok {token : Token}
    (h : walkFrom host setup trail none level (token :: rest) world = .ok w world') :
    ∃ result trail₁ world₁,
      step host setup trail none false level token world = .ok (result, trail₁) world₁ ∧
      walkFrom host setup (trail₁.push result) none level rest world₁ = .ok w world' := by
  rw [walkFrom_cons_none] at h
  obtain ⟨⟨result, trail₁⟩, world₁, hstep, h⟩ := exists_of_bind_ok h
  exact ⟨result, trail₁, world₁, hstep, h⟩

end

end GraphPath
