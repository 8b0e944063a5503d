import GraphPath.Resolve.Flat
import GraphPath.Resolve.Walk

/-! # Walking words

A walk over plain words uses nothing of its trail but the value reached last, and
no word enters a deeper level.  It therefore does the same as `Flat.follow`, which
keeps no trail at all (`walkFrom_words`).

The two are computations in different layers, an `Edit` of the graph and a
`Resolve` of the world around it; `Edit.run` goes from the first to the second and
respects sequencing (`Edit.run_bind`).

Where the keys are there, and nothing is to be written, following them only reads
(`Flat.follow_cons_of_getKey?`).
-/

namespace GraphPath

/-! ## Computations, one after the other -/

section
variable {ε σ α β : Type} {x : EStateM ε σ α} {f : α → EStateM ε σ β} {s s' : σ}

theorem bind_of_ok {a : α} (h : x s = .ok a s') : (x >>= f) s = f a s' := by
  show EStateM.bind x f s = _
  rw [EStateM.bind, h]

theorem bind_of_error {e : ε} (h : x s = .error e s') : (x >>= f) s = .error e s' := by
  show EStateM.bind x f s = _
  rw [EStateM.bind, h]

/-- If the whole succeeds, so does each part. -/
theorem exists_of_bind_ok {b : β} (h : (x >>= f) s = .ok b s') :
    ∃ a s₁, x s = .ok a s₁ ∧ f a s₁ = .ok b s' := by
  cases hx : x s with
  | ok a s₁ =>
    rw [bind_of_ok hx] at h
    exact ⟨a, s₁, rfl, h⟩
  | error e s₁ =>
    rw [bind_of_error hx] at h
    cases h

/-- If the whole fails, then one of the parts does. -/
theorem bind_eq_error {e : ε} (h : (x >>= f) s = .error e s') :
    x s = .error e s' ∨ ∃ a s₁, x s = .ok a s₁ ∧ f a s₁ = .error e s' := by
  cases hx : x s with
  | ok a s₁ =>
    rw [bind_of_ok hx] at h
    exact Or.inr ⟨a, s₁, rfl, h⟩
  | error e' s₁ =>
    rw [bind_of_error hx] at h
    cases h
    exact Or.inl rfl

end

namespace Edit
variable {ε α β : Type}

/-- Looking at the graph changes nothing. -/
theorem ask_eq_ok_iff {f : Graph → α} {g g' : Graph} {a : α} :
    Edit.ask f g = .ok a g' ↔ f g = a ∧ g = g' := by
  constructor
  · intro h
    cases h
    exact ⟨rfl, rfl⟩
  · rintro ⟨rfl, rfl⟩
    rfl

theorem run_of_ok {edit : Edit α} {world : World ε} {a : α} {graph : Graph}
    (h : edit world.graph = .ok a graph) : Edit.run edit world = .ok a { world with graph } := by
  rw [Edit.run, h]

theorem run_of_error {edit : Edit α} {world : World ε} {failure : Failure} {graph : Graph}
    (h : edit world.graph = .error failure graph) :
    Edit.run edit world = .error (.unresolved failure) { world with graph } := by
  rw [Edit.run, h]

theorem exists_of_run_ok {edit : Edit α} {world world' : World ε} {a : α}
    (h : Edit.run edit world = .ok a world') :
    ∃ graph, edit world.graph = .ok a graph ∧ world' = { world with graph } := by
  unfold Edit.run at h
  cases hedit : edit world.graph with
  | ok b graph =>
    rw [hedit] at h
    cases h
    exact ⟨graph, rfl, rfl⟩
  | error failure graph =>
    rw [hedit] at h
    cases h

@[simp] theorem run_pure (a : α) : (Edit.run (ε := ε) (pure a) : Resolve ε α) = pure a := rfl

theorem run_bind (edit : Edit α) (next : α → Edit β) :
    (Edit.run (ε := ε) (edit >>= next)) = Edit.run edit >>= fun a => Edit.run (next a) := by
  funext world
  cases h : edit world.graph with
  | ok a graph =>
    rw [bind_of_ok (run_of_ok h), Edit.run, bind_of_ok h]
    rfl
  | error failure graph =>
    rw [bind_of_error (run_of_error h), Edit.run, bind_of_error h]

end Edit

/-! ## Keys that are there -/

namespace Step

/-- A step by a key that is there reads its value and changes nothing. -/
theorem byKey_of_getKey? {g : Graph} {target v : Value} {key : String}
    (hfound : g.getKey? target key = some v) (vivify : Bool) :
    byKey target key none vivify g = .ok v g := by
  have hask : Edit.ask (fun g => g.getKey? target key) g = .ok (some v) g :=
    Edit.ask_eq_ok_iff.mpr ⟨hfound, rfl⟩
  exact bind_of_ok hask

end Step

namespace Flat

/-- So the rest of a path is read from that value on. -/
theorem follow_cons_of_getKey? {g : Graph} {target v : Value} {key : String}
    (hfound : g.getKey? target key = some v) (setup : Setup) (rest : List String) :
    follow setup none target (key :: rest) g = follow setup none v rest g := by
  have hstep := Step.byKey_of_getKey? hfound
    (setup.autoVivify && (none : Option Value).isSome && !rest.isEmpty)
  rw [follow, ite_self]
  exact bind_of_ok hstep

end Flat

/-! ## Walks -/

section
variable {ε : Type} {host : Host ε} {setup : Setup}

/-- A walk with at least one step may begin at any level up to the limit. -/
theorem enter_of_le {tokens : List Token} {level : Nat} (hne : tokens ≠ [])
    (hlevel : level ≤ setup.maxDepth) : (enter setup tokens level : Resolve ε Unit) = pure () := by
  rw [enter, if_neg (Nat.not_lt.mpr hlevel), List.isEmpty_eq_false_iff.mpr hne]
  rfl

/-- Resolving at least one token is a walk from the root. -/
theorem resolveTokens_of_ne_nil {tokens : List Token} (hne : tokens ≠ []) (root : Value)
    (new? : Option Value) :
    resolveTokens host setup root tokens new? = walkFrom host setup ⟨root, []⟩ new? 0 tokens := by
  rw [resolveTokens, enter_of_le hne (Nat.zero_le _), pure_bind]

end

section
variable {ε : Type} (host : Host ε) (setup : Setup)

/-- **A walk over words is a row of literal keys.** -/
theorem walkFrom_words (keys : List String) (trail : Trail) (new? : Option Value) (level : Nat) :
    walkFrom host setup trail new? level (keys.map .word) =
      (Flat.follow setup new? trail.current keys).run := by
  induction keys generalizing trail with
  | nil => rw [List.map_nil, walkFrom, Flat.follow, Edit.run_pure]
  | cons key rest ih =>
    rw [List.map_cons, walkFrom, step, Flat.follow, Edit.run_bind, List.isEmpty_map]
    simp only [bind_assoc, pure_bind]
    refine congrArg _ (funext fun result => ?_)
    rw [ih, Trail.current_push]

/-- Resolving a tree of words takes one literal key after the other, if there is one. -/
theorem resolveTokens_words {keys : List String} (hne : keys ≠ []) (root : Value)
    (new? : Option Value) :
    resolveTokens host setup root (keys.map .word) new? =
      (Flat.follow setup new? root keys).run := by
  have htokens : keys.map Token.word ≠ [] := mt List.map_eq_nil_iff.mp hne
  rw [resolveTokens_of_ne_nil htokens, walkFrom_words]
  rfl

end

end GraphPath
