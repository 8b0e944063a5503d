import GraphPath.Proofs.Graph.Closed

/-! # Graphs preserved in others

Some changes leave everything that was there as it was, and only add something of their
own: new containers, and the numbers of new callables.  The graph before is then
**preserved** in the graph after (`Graph.PreservedIn`).
-/

namespace GraphPath.Graph
variable {g g₁ g₂ g₃ : Graph}

/-- **A graph preserved in another one**: what it had is as it was. -/
structure PreservedIn (g g' : Graph) : Prop where
  /-- No container is lost. -/
  size_le : g.cells.size ≤ g'.cells.size
  /-- No number of a callable is given again. -/
  callables_le : g.callables ≤ g'.callables
  /-- The containers hold what they held. -/
  read_eq : ∀ h < g.cells.size, g'.read h = g.read h

theorem PreservedIn.refl (g : Graph) : g.PreservedIn g :=
  ⟨Nat.le_refl _, Nat.le_refl _, fun _ _ => rfl⟩

theorem PreservedIn.trans (h₁ : g₁.PreservedIn g₂) (h₂ : g₂.PreservedIn g₃) :
    g₁.PreservedIn g₃ where
  size_le := Nat.le_trans h₁.size_le h₂.size_le
  callables_le := Nat.le_trans h₁.callables_le h₂.callables_le
  read_eq h hlt := (h₂.read_eq h (Nat.lt_of_lt_of_le hlt h₁.size_le)).trans (h₁.read_eq h hlt)

theorem preservedIn_alloc (g : Graph) (cell : Cell) : g.PreservedIn (g.alloc cell).2 where
  size_le := Nat.le_of_lt (Nat.lt_of_lt_of_eq (Nat.lt_succ_self _) (g.size_alloc cell).symm)
  callables_le := Nat.le_refl _
  read_eq _ hlt := g.read_alloc_of_lt hlt cell

theorem preservedIn_newList (g : Graph) (items : List Value) :
    g.PreservedIn (g.newList items).2 := g.preservedIn_alloc (.list items)

theorem preservedIn_newCallable (g : Graph) (behaviour : Behaviour) :
    g.PreservedIn (g.newCallable behaviour).2 :=
  ⟨Nat.le_refl _, Nat.le_succ _, fun _ _ => rfl⟩

end GraphPath.Graph
