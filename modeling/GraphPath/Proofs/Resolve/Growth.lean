import GraphPath.Proofs.Graph.Reach
import GraphPath.Proofs.Resolve.KeyStep

/-! # Graphs that grow

Before a write comes to its last step a graph only grows (`Graph.Extends`): no container
is lost, and nothing inside one.  What a change puts inside values is said on its own
(`Graph.Adds`), since most of what is kept by a change depends on that.

New lists and new maps stand inside nothing.  A map that is made where a key is missing
stands inside the one container that lacked the key (`Step.extends_of_vivifyKey`).
-/

namespace GraphPath

namespace Cell
variable {cell cell' : Cell} {key : String} {v w : Value}

/-- Appending loses no value. -/
theorem Appends.mem_values (h : Appends key v cell cell') (hw : w ∈ cell.values) :
    w ∈ cell'.values := by
  cases h with
  | item hkey => exact List.mem_append_left _ hw
  | @field fields fields' hkey hnew =>
    show w ∈ fields'.entries.map Prod.snd
    rw [hnew, List.map_append]
    exact List.mem_append_left _ hw

end Cell

namespace Graph
variable {g g' : Graph} {cell : Cell} {v w : Value} {h : Handle} {key : String}

/-- **A graph has grown**: no container is lost, nothing inside one is lost, and lists are still
lists. -/
structure Extends (g g' : Graph) : Prop where
  /-- The containers in it are its own. -/
  closed : g'.Closed
  /-- No container is lost. -/
  size_le : g.cells.size ≤ g'.cells.size
  /-- What was inside a value still is. -/
  inside : ∀ v w, g.Inside v w → g'.Inside v w
  /-- Lists are still lists. -/
  list : ∀ h < g.cells.size, ∀ items, g.read h = .list items → ∃ items', g'.read h = .list items'

/-- **All that a change puts inside values**: some of a kind, inside one target. -/
def Adds (g g' : Graph) (target : Value) (S : Value → Prop) : Prop :=
  ∀ v w, g'.Inside v w → g.Inside v w ∨ (v = target ∧ S w)

/-- A change that leaves the containers alone. -/
theorem extends_of_cells (hg : g.Closed) (hcells : g'.cells = g.cells) : g.Extends g' where
  closed := by
    intro h v hv
    rw [read_congr hcells] at hv
    exact (hg h v hv).mono (Nat.le_of_eq (congrArg Array.size hcells).symm)
  size_le := Nat.le_of_eq (congrArg Array.size hcells).symm
  inside v w hin := hin.congr hcells
  list h _ items hread := ⟨items, (read_congr hcells h).trans hread⟩

theorem extends_alloc (hg : g.Closed) (cell : Cell) (hcell : ∀ v ∈ cell.values, g.Holds v) :
    g.Extends (g.alloc cell).2 where
  closed := hg.alloc hcell
  size_le := by
    rw [size_alloc]
    exact Nat.le_succ _
  inside v w hin := inside_alloc_iff.mpr (Or.inl hin)
  list h hlt items hread := ⟨items, (g.read_alloc_of_lt hlt cell).trans hread⟩

/-- A new list is the next container. -/
theorem lt_size_newList (g : Graph) (items : List Value) :
    g.cells.size < (g.newList items).2.cells.size := by
  show _ < (g.alloc (.list items)).2.cells.size
  rw [size_alloc]
  exact Nat.lt_succ_self _

theorem adds_alloc : g.Adds (g.alloc cell).2 (.container g.cells.size) (· ∈ cell.values) :=
  fun _ _ hin => inside_alloc_iff.mp hin

/-- Giving a value to a key puts it inside, and nothing else. -/
theorem adds_set (hset : (g.read h).set key v = .ok cell) :
    g.Adds (g.write h cell) (.container h) (· = v) := by
  intro u w hin
  rcases inside_write_cases hin with hin | ⟨rfl, hw⟩
  · exact Or.inl hin
  · rcases Cell.mem_values_of_set hset hw with hw | hw
    · exact Or.inr ⟨rfl, hw⟩
    · exact Or.inl (inside_container_iff.mpr hw)

/-- Putting the items of a list in another order changes nothing of what is inside. -/
theorem inside_rearranged_iff {items items' : List Value} (hread : g.read h = .list items)
    (hsame : ∀ v, v ∈ items' ↔ v ∈ items) :
    (g.write h (.list items')).Inside v w ↔ g.Inside v w := by
  by_cases hv : v = .container h
  · subst hv
    by_cases hlt : h < g.cells.size
    · rw [inside_write_self_iff hlt, inside_container_iff, hread]
      exact hsame w
    · have hle : g.cells.size ≤ h := Nat.not_lt.mp hlt
      rw [inside_container_iff, inside_container_iff, read_of_size_le hle,
        read_of_size_le (g.size_write h _ ▸ hle)]
  · exact inside_write_iff_of_ne hv

theorem extends_rearranged {items items' : List Value} (hg : g.Closed)
    (hread : g.read h = .list items) (hsame : ∀ v, v ∈ items' ↔ v ∈ items) :
    g.Extends (g.write h (.list items')) where
  closed := by
    refine hg.write (fun v hv => hg h v ?_) h
    rw [hread]
    exact (hsame v).mp hv
  size_le := Nat.le_of_eq (g.size_write h _).symm
  inside _ _ hin := (inside_rearranged_iff hread hsame).mpr hin
  list k hk others hothers := by
    by_cases hkh : k = h
    · subst hkh
      exact ⟨items', g.read_write_self hk _⟩
    · exact ⟨others, (g.read_write_of_ne hkh _).trans hothers⟩

end Graph

namespace Step
variable {g g' : Graph} {w : Value} {h : Handle} {key : String}

/-- **Putting a new map under a missing key makes a graph grow** by the map, which is inside. -/
theorem extends_of_vivifyKey (hg : g.Closed) (hlt : h < g.cells.size)
    (habsent : g.getKey? (.container h) key = none)
    (hmade : vivifyKey (.container h) key g = .ok w g') :
    g.Extends g' ∧ w = .container g.cells.size ∧ g'.Inside (.container h) w ∧
      g.Adds g' (.container h) (· = w) := by
  obtain ⟨hclosed, -⟩ := closed_of_vivifyKey hg hlt hmade
  obtain ⟨hw, hsize, hempty, hset, hothers⟩ := vivifyKey_eq_ok hlt hmade
  have happends := Cell.appends_of_set habsent hset
  refine ⟨⟨hclosed, by omega, fun u x hin => ?inside, fun k hk items hread => ?list⟩, hw,
    Graph.inside_container_iff.mpr (Cell.mem_values_of_get? happends.get?), fun u x hin => ?adds⟩
  case inside =>
    obtain ⟨k, rfl⟩ := hin.exists_handle
    rw [Graph.inside_container_iff]
    by_cases hk : k = h
    · subst hk
      exact happends.mem_values (Graph.inside_container_iff.mp hin)
    · rw [hothers k hin.lt_size hk]
      exact Graph.inside_container_iff.mp hin
  case list =>
    by_cases hkh : k = h
    · subst hkh
      rw [hread] at happends
      generalize g'.read k = cell at happends
      cases happends with
      | item hkey => exact ⟨_, rfl⟩
    · exact ⟨items, (hothers k hk hkh).trans hread⟩
  case adds =>
    obtain ⟨k, rfl⟩ := hin.exists_handle
    have hk : k < g.cells.size ∨ k = g.cells.size := by
      have hlt := hin.lt_size
      rw [hsize] at hlt
      exact Nat.lt_succ_iff_lt_or_eq.mp hlt
    rw [Graph.inside_container_iff] at hin ⊢
    by_cases hkh : k = h
    · subst hkh
      exact (Cell.mem_values_of_set hset hin).symm.imp_right fun hx => ⟨rfl, hx⟩
    rcases hk with hk | rfl
    · exact Or.inl (hothers k hk hkh ▸ hin)
    · rw [hempty] at hin
      cases hin

end Step

end GraphPath
