import GraphPath.Proofs.Resolve.Atomic
import GraphPath.Proofs.Resolve.HostState
import GraphPath.Proofs.Resolve.Region

/-! # Reads do not write

Reading and writing share the same steps.  What a step does to the graph, whether it succeeds
or fails, is told by a relation between the graphs before and after (`Moves`), and if nothing
and one thing after the other are both among what it allows, then it is enough to look at the
parts of a step.  The lemmas about the parts (`step_computed_moves` and its like) serve for
steps of every kind.

Where nothing is called, **a read leaves every container as it was** (`walkFrom_reads`),
whether it succeeds or fails, and whether or not maps are made where keys are missing.
-/

namespace GraphPath

/-! ## Changes of the graph alone -/

/-- **Nothing but the graph has changed**, in the given way. -/
structure World.GraphOnly {ε : Type} (R : Graph → Graph → Prop) (world world' : World ε) :
    Prop where
  /-- The host keeps what it kept. -/
  host_eq : world'.host = world.host
  /-- The graph has changed in this way. -/
  graph : R world.graph world'.graph

section
variable {ε α : Type} {R : Graph → Graph → Prop} {world : World ε}

theorem IsPreorder.graphOnly (hR : IsPreorder R) : IsPreorder (World.GraphOnly (ε := ε) R) where
  refl world := ⟨rfl, hR.refl world.graph⟩
  trans h h' := ⟨h'.host_eq.trans h.host_eq, hR.trans h.graph h'.graph⟩

theorem Moves.run {edit : Edit α} (h : Moves R edit world.graph) :
    Moves (World.GraphOnly R) edit.run world := by
  cases hedit : edit world.graph with
  | ok a graph =>
    rw [Moves, hedit] at h
    exact moves_of_ok (Edit.run_of_ok hedit) ⟨rfl, h⟩
  | error failure graph =>
    rw [Moves, hedit] at h
    exact moves_of_error (Edit.run_of_error hedit) ⟨rfl, h⟩

end

/-! ## Reading -/

theorem Graph.preservedIn_isPreorder : IsPreorder Graph.PreservedIn where
  refl := .refl
  trans := .trans

section
variable {R : Graph → Graph → Prop} (hR : IsPreorder R) {g : Graph}
include hR

theorem Edit.moves_askFor {α : Type} (f : Graph → Except Failure α) :
    Moves R (Edit.askFor f) g := by
  cases hf : f g with
  | ok a => exact moves_of_ok (Edit.askFor_eq_ok_iff.mpr ⟨hf, rfl⟩) (hR.refl g)
  | error failure =>
    have hfail : Edit.askFor f g = .error failure g := by rw [Edit.askFor, hf]
    exact moves_of_error hfail (hR.refl g)

/-- A modified word does what it does with its key on the value that its modifiers lead to. -/
theorem Step.byModified_moves {setup : Setup} {trail : Trail} {word : String}
    {modifiers : Modifiers} {new? : Option Value}
    (hkey : ∀ target trail' key, trail.select modifiers = .ok (target, trail') →
      setup.finalKey g word modifiers = .ok key →
      Moves R (Step.withKey setup target key modifiers new?) g) :
    Moves R (Step.byModified setup trail word modifiers new?) g := by
  rw [Step.byModified_eq]
  refine (Edit.moves_askFor hR _).bind hR fun reached g₁ hreached => ?_
  obtain ⟨hselect, rfl⟩ := Edit.askFor_eq_ok_iff.mp hreached
  refine (Edit.moves_askFor hR _).bind hR fun key g₂ hfound => ?_
  obtain ⟨hfinal, rfl⟩ := Edit.askFor_eq_ok_iff.mp hfound
  exact (hkey _ _ key hselect hfinal).bind_pure hR _

end

namespace Step
variable {g : Graph} (target : Value) (key : String)

theorem missing_reads : Moves Graph.PreservedIn (missing target key) g := by
  cases h : missing target key g with
  | ok w g' => exact moves_of_ok h (preservedIn_of_missing h)
  | error failure g' =>
    rw [eq_of_missing_error h] at h
    exact moves_of_error h (.refl g)

theorem byKey_reads : Moves Graph.PreservedIn (byKey target key none false) g := by
  cases h : byKey target key none false g with
  | ok w g' => exact moves_of_ok h (preservedIn_of_byKey rfl h)
  | error failure g' => exact moves_of_error h (preservedIn_of_byKey_error h)

theorem byModifiedKey_reads : Moves Graph.PreservedIn (byModifiedKey target key none) g := by
  have hread := byModifiedKey_none g target key
  cases hfound : g.getKey? target key with
  | some found =>
    rw [hfound] at hread
    exact moves_of_ok hread (.refl g)
  | none =>
    rw [hfound] at hread
    dsimp only at hread
    split at hread
    · rw [byPattern_none] at hread
      exact moves_of_ok hread (g.preservedIn_newList _)
    · rw [Moves, hread]
      exact missing_reads target key

theorem byModified_reads (setup : Setup) (trail : Trail) (word : String) (modifiers : Modifiers) :
    Moves Graph.PreservedIn (byModified setup trail word modifiers none) g := by
  refine byModified_moves Graph.preservedIn_isPreorder fun target trail' key _ _ => ?_
  unfold withKey
  split
  · exact Edit.moves_askFor Graph.preservedIn_isPreorder _
  · exact byModifiedKey_reads target key

end Step

/-- **A resolution only reads**: the containers that are there stay as they are. -/
abbrev Reads {ε α : Type} (x : Resolve ε α) (world : World ε) : Prop :=
  Moves (World.GraphOnly Graph.PreservedIn) x world

section
variable {ε : Type} {host : Host ε} {setup : Setup}

/-- Entering a level does nothing but fail, if it is too deep or there is nothing to enter. -/
theorem moves_enter {R : World ε → World ε → Prop} (hR : IsPreorder R) (tokens : List Token)
    (level : Nat) (world : World ε) : Moves R (enter setup tokens level) world := by
  unfold enter
  split
  · exact hR.refl world
  · split <;> exact hR.refl world

theorem moves_enterAlternative {R : World ε → World ε → Prop} (hR : IsPreorder R) (level : Nat)
    (member : Token) (world : World ε) : Moves R (enterAlternative setup level member) world := by
  rcases enterAlternative_cases member with ⟨-, henter⟩ | ⟨-, henter⟩
  · rw [henter]
    exact moves_enter hR _ _ world
  · rw [henter]
    exact hR.refl world

/-! ## Steps, part by part -/

section
variable {trail : Trail} {new? : Option Value} {vivify : Bool} {level : Nat} {world : World ε}
  {tree members rest : List Token} {member : Token} {R : Graph → Graph → Prop}
  (hR : IsPreorder R)
include hR

/-- A step by a computed key is a walk, and a step by the key that it comes to. -/
theorem step_computed_moves
    (hwalk : Moves (World.GraphOnly R) (walkFrom host setup trail none (level + 1) tree) world)
    (hkey : ∀ computed world₁ key,
      walkFrom host setup trail none (level + 1) tree world = .ok computed world₁ →
      world₁.graph.toKey computed = .ok key →
      Moves R (Step.byKey trail.current key new? vivify) world₁.graph) :
    Moves (World.GraphOnly R)
      (step host setup trail new? vivify level (.container .evalProperty tree)) world := by
  have hR' : IsPreorder (World.GraphOnly (ε := ε) R) := hR.graphOnly
  rw [step]
  refine (moves_enter hR' tree _ world).bind hR' fun _ world₁ henter => ?_
  rw [enter_eq_ok henter]
  refine hwalk.bind hR' fun computed world₂ hcomputed => ?_
  refine (Moves.run (Edit.moves_askFor hR _)).bind hR' fun key world₃ hasked => ?_
  obtain ⟨graph, hask, rfl⟩ := Edit.exists_of_run_ok hasked
  obtain ⟨htext, rfl⟩ := Edit.askFor_eq_ok_iff.mp hask
  exact (Moves.run (hkey computed world₂ key hcomputed htext)).bind_pure hR' _

/-- A path of its own is walked from the trail that there is. -/
theorem step_path_moves {role : ContainerRole} (hrole : role.IsPath)
    (hwalk : enter setup tree (level + 1) world = .ok () world →
      Moves (World.GraphOnly R) (walkFrom host setup trail new? (level + 1) tree) world) :
    Moves (World.GraphOnly R) (step host setup trail new? vivify level (.container role tree))
      world := by
  have hR' : IsPreorder (World.GraphOnly (ε := ε) R) := hR.graphOnly
  rw [step_path_eq hrole]
  refine (moves_enter hR' tree _ world).bind hR' fun _ world₁ henter => ?_
  obtain rfl := enter_eq_ok henter
  exact (hwalk henter).bind_pure hR' _

/-- A collection makes a list of the results of its alternatives. -/
theorem step_collection_moves (hgrows : ∀ g g', g.PreservedIn g' → R g g')
    (hmembers : Moves (World.GraphOnly R) (alternatives host setup trail new? level members) world) :
    Moves (World.GraphOnly R) (step host setup trail new? vivify level (.collection members))
      world := by
  have hR' : IsPreorder (World.GraphOnly (ε := ε) R) := hR.graphOnly
  rw [step]
  refine hmembers.bind hR' fun results world₁ _ => ?_
  have hlist : Moves R (Edit.make fun g => g.newList results) world₁.graph :=
    hgrows _ _ (world₁.graph.preservedIn_newList results)
  exact (Moves.run hlist).bind_pure hR' _

/-- Alternatives are taken one after the other. -/
theorem alternatives_cons_moves
    (hmember : enterAlternative setup level member world = .ok () world →
      Moves (World.GraphOnly R)
        (step host setup trail new? false (alternativeLevel level member) member) world)
    (hrest : ∀ result world₁,
      alternative host setup trail new? level member world = .ok result world₁ →
      Moves (World.GraphOnly R) (alternatives host setup trail new? level rest) world₁) :
    Moves (World.GraphOnly R) (alternatives host setup trail new? level (member :: rest)) world := by
  have hR' : IsPreorder (World.GraphOnly (ε := ε) R) := hR.graphOnly
  have hfirst : Moves (World.GraphOnly R) (alternative host setup trail new? level member)
      world := by
    refine (moves_enterAlternative hR' level member world).bind hR' fun _ world₁ henter => ?_
    obtain rfl := enterAlternative_eq_ok henter
    exact hmember henter
  rw [alternatives_cons]
  refine hfirst.bind hR' fun result world₁ hresult => ?_
  refine Moves.bind hR' (Moves.run (hR.refl world₁.graph)) fun results world₂ hspread => ?_
  rw [(spread_eq_ok hspread).2]
  exact (hrest result world₁ hresult).bind_pure hR' _

end

mutual

/-- **A reading step changes nothing**, unless it calls something. -/
theorem step_reads (trail : Trail) (level : Nat) (world : World ε) (token : Token)
    (hcalls : token.callFree = true) : Reads (step host setup trail none false level token) world := by
  have hR := Graph.preservedIn_isPreorder
  match token with
  | .word key =>
    rw [step]
    exact (Moves.run (Step.byKey_reads _ key)).bind_pure hR.graphOnly _
  | .modified word modifiers =>
    rw [step]
    exact Moves.run (Step.byModified_reads setup trail word modifiers)
  | .collection members =>
    rw [Token.callFree] at hcalls
    exact step_collection_moves hR (fun _ _ h => h)
      (alternatives_reads trail level world members hcalls)
  | .container .call tree => cases hcalls
  | .container .evalProperty tree =>
    simp only [Token.callFree] at hcalls
    exact step_computed_moves hR (walkFrom_reads trail _ world tree hcalls)
      fun _ _ key _ _ => Step.byKey_reads _ key
  | .container .property tree | .container .quote tree =>
    simp only [Token.callFree] at hcalls
    exact step_path_moves hR trivial fun _ => walkFrom_reads trail _ world tree hcalls

theorem alternatives_reads (trail : Trail) (level : Nat) (world : World ε) (members : List Token)
    (hcalls : Token.allCallFree members = true) :
    Reads (alternatives host setup trail none level members) world := by
  have hR := Graph.preservedIn_isPreorder
  match members with
  | [] =>
    rw [alternatives]
    exact hR.graphOnly.refl world
  | member :: rest =>
    rw [Token.allCallFree, Bool.and_eq_true] at hcalls
    exact alternatives_cons_moves hR (fun _ => step_reads trail _ world member hcalls.1)
      fun _ world₁ _ => alternatives_reads trail level world₁ rest hcalls.2

/-- **A walk that reads changes nothing**, unless it calls something. -/
theorem walkFrom_reads (trail : Trail) (level : Nat) (world : World ε) (tokens : List Token)
    (hcalls : Token.allCallFree tokens = true) :
    Reads (walkFrom host setup trail none level tokens) world := by
  have hR := Graph.preservedIn_isPreorder
  match tokens with
  | [] =>
    rw [walkFrom]
    exact hR.graphOnly.refl world
  | token :: rest =>
    rw [Token.allCallFree, Bool.and_eq_true] at hcalls
    rw [walkFrom_cons_none]
    exact (step_reads trail level world token hcalls.1).bind hR.graphOnly
      fun _ world₁ _ => walkFrom_reads _ level world₁ rest hcalls.2

end

end

end GraphPath
