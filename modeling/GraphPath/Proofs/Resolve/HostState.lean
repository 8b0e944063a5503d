import GraphPath.Proofs.Resolve.Congruence

/-! # The state of the host

Resolving a path works on the document; what the host keeps for itself is changed by
host functions alone.  So if every call of one of them leads the state of the host
along some relation, and the relation is reflexive and transitive, then every
resolution does (`Engine.resolve_leads`), whether it succeeds or fails.

For the same reason a resolution does not know what the host keeps.  Two hosts may keep
different things, the one perhaps more than the other.  If what the second one keeps is
always a view of what the first one keeps, then so it is along every resolution, with the
same results (`Engine.resolve_seenAs`).
-/

namespace GraphPath

/-! ## What a resolution leaves -/

/-- The world that a computation leaves, whether it succeeds or fails. -/
def worldAfter {ε α : Type} : EStateM.Result PathError (World ε) α → World ε
  | .ok _ world => world
  | .error _ world => world

/-- **A computation leads the state of the host** along a relation. -/
def Leads {ε α : Type} (R : ε → ε → Prop) (x : Resolve ε α) : Prop :=
  ∀ world, R world.host (worldAfter (x world)).host

/-- A relation along which nothing and one thing after the other can lead. -/
structure IsPreorder {ε : Type} (R : ε → ε → Prop) : Prop where
  /-- Nothing has happened. -/
  refl : ∀ s, R s s
  /-- One thing has happened after the other. -/
  trans : ∀ {s₁ s₂ s₃}, R s₁ s₂ → R s₂ s₃ → R s₁ s₃

/-- **A computation leads along a relation**, whether it succeeds or fails. -/
def Moves {ε σ α : Type} (R : σ → σ → Prop) (x : EStateM ε σ α) (s : σ) : Prop :=
  match x s with
  | .ok _ s' | .error _ s' => R s s'

section
variable {ε σ α β : Type} {R R' : σ → σ → Prop} {x : EStateM ε σ α} {s s' : σ}

theorem moves_of_ok {a : α} (h : x s = .ok a s') (hR : R s s') : Moves R x s := by
  rw [Moves, h]
  exact hR

theorem moves_of_error {e : ε} (h : x s = .error e s') (hR : R s s') : Moves R x s := by
  rw [Moves, h]
  exact hR

theorem moves_congr {y : EStateM ε σ α} (h : x s = y s) : Moves R x s ↔ Moves R y s := by
  rw [Moves, Moves, h]

theorem Moves.mono (hx : Moves R x s) (hle : ∀ s s', R s s' → R' s s') : Moves R' x s := by
  cases h : x s with
  | ok a s' =>
    rw [Moves, h] at hx
    exact moves_of_ok h (hle s s' hx)
  | error e s' =>
    rw [Moves, h] at hx
    exact moves_of_error h (hle s s' hx)

theorem Moves.bind (hR : IsPreorder R) {f : α → EStateM ε σ β} (hx : Moves R x s)
    (hf : ∀ a s', x s = .ok a s' → Moves R (f a) s') : Moves R (x >>= f) s := by
  cases h : x s with
  | ok a s₁ =>
    have hrest := hf a s₁ h
    rw [Moves, h] at hx
    rw [Moves, bind_of_ok h]
    cases hend : f a s₁ with
    | ok b s₂ | error e s₂ =>
      rw [Moves, hend] at hrest
      exact hR.trans hx hrest
  | error e s₁ =>
    rw [Moves, h] at hx
    exact moves_of_error (bind_of_error h) hx

/-- What is answered in the end does not matter. -/
theorem Moves.bind_pure (hR : IsPreorder R) (f : α → β) (hx : Moves R x s) :
    Moves R (x >>= fun a => pure (f a)) s :=
  hx.bind hR fun _ s' _ => hR.refl s'

end

theorem moves_iff_worldAfter {ε α : Type} {R : World ε → World ε → Prop} {x : Resolve ε α}
    {world : World ε} : Moves R x world ↔ R world (worldAfter (x world)) := by
  cases h : x world <;> simp only [Moves, h, worldAfter]

/-! ## What the host keeps -/

theorem leads_iff_moves {ε α : Type} {R : ε → ε → Prop} {x : Resolve ε α} :
    Leads R x ↔ ∀ world, Moves (fun world world' : World ε => R world.host world'.host) x world :=
  forall_congr' fun _ =>
    (moves_iff_worldAfter (R := fun world world' => R world.host world'.host)).symm

section
variable {ε : Type} {R : ε → ε → Prop} (hR : IsPreorder R)
include hR

theorem Leads.throw {α : Type} (e : PathError) : Leads R (MonadExcept.throw e : Resolve ε α) :=
  fun world => hR.refl world.host

theorem Leads.bind {α β : Type} {x : Resolve ε α} {f : α → Resolve ε β} (hx : Leads R x)
    (hf : ∀ a, Leads R (f a)) : Leads R (x >>= f) := by
  rw [leads_iff_moves] at hx ⊢
  have hR' : IsPreorder fun world world' : World ε => R world.host world'.host :=
    ⟨fun world => hR.refl world.host, hR.trans⟩
  exact fun world => (hx world).bind hR' fun a world' _ => leads_iff_moves.mp (hf a) world'

/-- An edit of the graph leaves the host alone. -/
theorem Leads.run {α : Type} (edit : Edit α) : Leads R (Edit.run (ε := ε) edit) := by
  intro world
  unfold Edit.run
  cases edit world.graph <;> exact hR.refl world.host

theorem leads_congruence : Congruence fun _ (x _ : Resolve ε _) => Leads R x where
  pure _ := fun world => hR.refl world.host
  throw _ := Leads.throw hR _
  bind := Leads.bind hR
  run := Leads.run hR

/-- **Resolving a path leads the state of the host** where calls of its functions do. -/
theorem Engine.resolve_leads {host : Host ε}
    (hhost : ∀ f receiver arguments, Leads R (host f receiver arguments)) (engine : Engine)
    (root : Value) (path : Path) (new? : Option Value) (arguments : List Value) :
    Leads R (engine.resolve host root path new? arguments).1 :=
  Congruence.resolve host host (leads_congruence hR) hhost (Leads.throw hR) engine root path new?
    arguments

end

/-! ## Views of what the host keeps -/

/-- A world, seen as one of a host that keeps a view of what its own host keeps. -/
def World.seenAs {ε ε' : Type} (view : ε → ε') (world : World ε) : World ε' where
  graph := world.graph
  host := view world.host

/-- What a computation comes to, with the world that it leaves seen in this way. -/
def resultSeenAs {ε ε' α : Type} (view : ε → ε') :
    EStateM.Result PathError (World ε) α → EStateM.Result PathError (World ε') α
  | .ok a world => .ok a (world.seenAs view)
  | .error e world => .error e (world.seenAs view)

/-- **A computation is a view of another one**: on worlds that are views it does the same. -/
def SeenAs {ε ε' α : Type} (view : ε → ε') (x : Resolve ε α) (y : Resolve ε' α) : Prop :=
  ∀ world, y (world.seenAs view) = resultSeenAs view (x world)

section
variable {ε ε' : Type} {view : ε → ε'}

theorem SeenAs.throw {α : Type} (e : PathError) :
    SeenAs view (MonadExcept.throw e : Resolve ε α) (MonadExcept.throw e) := fun _ => rfl

theorem SeenAs.bind {α β : Type} {x : Resolve ε α} {y : Resolve ε' α} {f : α → Resolve ε β}
    {f' : α → Resolve ε' β} (hx : SeenAs view x y) (hf : ∀ a, SeenAs view (f a) (f' a)) :
    SeenAs view (x >>= f) (y >>= f') := by
  intro world
  have hfirst := hx world
  cases h : x world with
  | ok a world' =>
    rw [h] at hfirst
    rw [bind_of_ok h, bind_of_ok hfirst]
    exact hf a world'
  | error e world' =>
    rw [h] at hfirst
    rw [bind_of_error h, bind_of_error hfirst]
    rfl

theorem SeenAs.run {α : Type} (edit : Edit α) :
    SeenAs view (Edit.run (ε := ε) edit) (Edit.run (ε := ε') edit) := by
  intro world
  have hgraph : (world.seenAs view).graph = world.graph := rfl
  unfold Edit.run
  rw [hgraph]
  cases edit world.graph <;> rfl

theorem seenAs_congruence : Congruence fun _ (x : Resolve ε _) y => SeenAs view x y where
  pure _ := fun _ => rfl
  throw _ := SeenAs.throw _
  bind := SeenAs.bind
  run := SeenAs.run

/-- **A path is resolved in the same way by a host that keeps a view** of what another one keeps. -/
theorem Engine.resolve_seenAs {host : Host ε} {host' : Host ε'}
    (hhost : ∀ f receiver arguments,
      SeenAs view (host f receiver arguments) (host' f receiver arguments)) (engine : Engine)
    (root : Value) (path : Path) (new? : Option Value) (arguments : List Value) :
    SeenAs view (engine.resolve host root path new? arguments).1
      (engine.resolve host' root path new? arguments).1 :=
  Congruence.resolve host host' seenAs_congruence hhost SeenAs.throw engine root path new? arguments

end

end GraphPath
