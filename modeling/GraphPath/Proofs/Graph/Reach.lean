import GraphPath.Proofs.Graph.Closed
import GraphPath.Proofs.Graph.Keys
import Mathlib.Logic.Relation

/-! # What can be reached in a graph

A value is **inside** another one if it stands under one of its own keys
(`Graph.Inside`), and can be **reached** from it in so many steps inwards
(`Graph.Reaches`).  What is inside what is described here for the operations that
change a graph: allocating and writing.

Two facts about reaching are used again and again.  In a graph that has only grown,
everything can still be reached that could be before (`Reaches.mono`).  And whatever is
written to a container, the container itself can still be reached (`Reaches.write_self`),
because a shortest way to it does not pass it.
-/

namespace GraphPath

namespace Cell
variable {cell cell' : Cell} {key : String} {v w : Value}

/-- The values of a container are those of its entries. -/
theorem mem_values_iff_mem_entries : w ∈ cell.values ↔ ∃ key, (key, w) ∈ cell.entries := by
  rw [← map_snd_entries, List.mem_map]
  constructor
  · rintro ⟨⟨key, v⟩, hmem, rfl⟩
    exact ⟨key, hmem⟩
  · rintro ⟨key, hmem⟩
    exact ⟨(key, w), hmem, rfl⟩

end Cell

namespace Graph
variable {g g' : Graph} {h : Handle} {cell : Cell} {u v w : Value} {key : String}

/-- **A value is inside another one** if it stands under one of its own keys. -/
def Inside (g : Graph) (v w : Value) : Prop := ∃ key, (key, w) ∈ g.children v

/-- **A value can be reached from another one** by going inside, any number of times. -/
def Reaches (g : Graph) : Value → Value → Prop := Relation.ReflTransGen g.Inside

theorem inside_container_iff : g.Inside (.container h) w ↔ w ∈ (g.read h).values :=
  Cell.mem_values_iff_mem_entries.symm

/-- Only containers have values inside. -/
theorem Inside.exists_handle (hin : g.Inside v w) : ∃ h, v = .container h := by
  cases v with
  | container h => exact ⟨h, rfl⟩
  | _ =>
    obtain ⟨key, hkey⟩ := hin
    cases hkey

theorem Inside.lt_size (hin : g.Inside (.container h) w) : h < g.cells.size := by
  obtain ⟨key, hentry⟩ := hin
  exact lt_size_of_mem_entries hentry

theorem inside_of_getKey? (hkey : g.getKey? v key = some w) : g.Inside v w := by
  cases v with
  | container h => exact inside_container_iff.mpr (Cell.mem_values_of_get? hkey)
  | _ => cases hkey

theorem inside_of_items? {items : List Value} (hitems : g.items? v = some items)
    (hw : w ∈ items) : g.Inside v w := by
  cases v with
  | container h =>
    rw [inside_container_iff]
    unfold items? at hitems
    dsimp only at hitems
    split at hitems <;> cases hitems
    rename_i hread
    rw [hread]
    exact hw
  | _ => cases hitems

theorem Closed.holds_of_inside (hg : g.Closed) (hin : g.Inside v w) : g.Holds w := by
  obtain ⟨h, rfl⟩ := hin.exists_handle
  exact hg h w (inside_container_iff.mp hin)

/-- What is inside depends on the containers alone. -/
theorem read_congr (hcells : g'.cells = g.cells) (h : Handle) : g'.read h = g.read h := by
  unfold read
  rw [hcells]

theorem Inside.congr (hin : g.Inside v w) (hcells : g'.cells = g.cells) : g'.Inside v w := by
  obtain ⟨h, rfl⟩ := hin.exists_handle
  rwa [inside_container_iff, ← read_congr hcells, ← inside_container_iff] at hin

/-! ## Allocating and writing -/

/-- Allocating puts the contents of the new container inside it, and nothing else anywhere. -/
theorem inside_alloc_iff : (g.alloc cell).2.Inside v w ↔
    g.Inside v w ∨ (v = .container g.cells.size ∧ w ∈ cell.values) := by
  cases v with
  | container h =>
    rw [inside_container_iff, inside_container_iff, Value.container.injEq]
    rcases Nat.lt_trichotomy h g.cells.size with hlt | rfl | hgt
    · rw [g.read_alloc_of_lt hlt]
      exact ⟨Or.inl, fun hw => hw.resolve_right fun hw => absurd hw.1 (Nat.ne_of_lt hlt)⟩
    · rw [g.read_alloc_self, read_of_size_le (Nat.le_refl g.cells.size)]
      exact ⟨fun hw => Or.inr ⟨rfl, hw⟩, fun hw => hw.elim nofun And.right⟩
    · rw [read_of_size_le (size_alloc g cell ▸ hgt), read_of_size_le (Nat.le_of_lt hgt)]
      exact ⟨nofun, fun hw => hw.elim nofun fun hw => absurd hw.1 (Nat.ne_of_gt hgt)⟩
  | _ =>
    constructor
    · intro hin
      obtain ⟨h, hv⟩ := hin.exists_handle
      cases hv
    · rintro (hin | ⟨hv, -⟩)
      · obtain ⟨h, hv⟩ := hin.exists_handle
        cases hv
      · cases hv

/-- Writing changes what is inside one container. -/
theorem inside_write_iff_of_ne (hne : v ≠ .container h) :
    (g.write h cell).Inside v w ↔ g.Inside v w := by
  cases v with
  | container k =>
    have hk : k ≠ h := fun hk => hne (congrArg Value.container hk)
    rw [inside_container_iff, inside_container_iff, g.read_write_of_ne hk]
  | _ =>
    constructor <;> intro hin
    all_goals
      obtain ⟨h, hv⟩ := hin.exists_handle
      cases hv

theorem inside_write_self_iff (hlt : h < g.cells.size) :
    (g.write h cell).Inside (.container h) w ↔ w ∈ cell.values := by
  rw [inside_container_iff, g.read_write_self hlt]

/-- What is inside after a write was there before, or is what was written. -/
theorem inside_write_cases (hin : (g.write h cell).Inside v w) :
    g.Inside v w ∨ (v = .container h ∧ w ∈ cell.values) := by
  by_cases hv : v = .container h
  · subst hv
    have hlt := hin.lt_size
    rw [size_write] at hlt
    exact Or.inr ⟨rfl, (inside_write_self_iff hlt).mp hin⟩
  · exact Or.inl ((inside_write_iff_of_ne hv).mp hin)

/-! ## Reaching -/

theorem Reaches.refl (v : Value) : g.Reaches v v := Relation.ReflTransGen.refl

theorem Reaches.tail (hreach : g.Reaches u v) (hin : g.Inside v w) : g.Reaches u w :=
  Relation.ReflTransGen.tail hreach hin

/-- From a value with nothing inside only the value itself is reached. -/
theorem Reaches.eq_of_not_inside (hreach : g.Reaches v w) (hnone : ∀ x, ¬ g.Inside v x) :
    w = v := by
  rcases Relation.ReflTransGen.cases_head hreach with heq | ⟨x, hin, -⟩
  · exact heq.symm
  · exact absurd hin (hnone x)

/-- What can be reached can be reached in a graph that has grown. -/
theorem Reaches.mono (hgrown : ∀ v w, g.Inside v w → g'.Inside v w) (hreach : g.Reaches v w) :
    g'.Reaches v w := Relation.ReflTransGen.mono hgrown v w hreach

/-- **Whatever is written to a container, it can still be reached.** -/
theorem Reaches.write_self (hreach : g.Reaches v (.container h)) (cell : Cell) :
    (g.write h cell).Reaches v (.container h) := by
  induction hreach using Relation.ReflTransGen.head_induction_on with
  | refl => exact .refl _
  | @head u w hin _ ih =>
    by_cases hu : u = .container h
    · exact hu ▸ .refl _
    · exact Relation.ReflTransGen.head ((inside_write_iff_of_ne hu).mpr hin) ih

/-- And it could be reached before, if it can be now. -/
theorem Reaches.of_write_self (hreach : (g.write h cell).Reaches v (.container h)) :
    g.Reaches v (.container h) := by
  induction hreach using Relation.ReflTransGen.head_induction_on with
  | refl => exact .refl _
  | @head u w hin _ ih =>
    by_cases hu : u = .container h
    · exact hu ▸ .refl _
    · exact Relation.ReflTransGen.head ((inside_write_iff_of_ne hu).mp hin) ih

/-- What is reached from a set of values that nothing leads out of belongs to the set. -/
theorem Reaches.mem_of_closed {S : Value → Prop} (hS : ∀ v w, S v → g.Inside v w → S w)
    (hreach : g.Reaches v w) (hv : S v) : S w := by
  induction hreach with
  | refl => exact hv
  | tail _ hin ih => exact hS _ _ ih hin

end Graph

end GraphPath
