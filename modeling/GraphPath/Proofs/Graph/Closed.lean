import GraphPath.Json.Document
import GraphPath.Proofs.OrderedMap

/-! # Closed graphs

Handles are numbers, and a graph could hold a number that stands for none of its
containers.  A **closed** graph does not (`Graph.Closed`).  The empty graph is closed,
writing and allocating keep a graph closed if what they put into it is its own
(`Closed.write`, `Closed.alloc`), and so every document that is read from JSON is one
(`Closed.addJson`).

A graph that has grown still has what it had, since handles are never taken back
(`Holds.mono`).
-/

namespace GraphPath

namespace Cell
variable {cell cell' : Cell} {key : String} {v w : Value}

theorem mem_values_of_get? (h : cell.get? key = some v) : v ∈ cell.values := by
  cases cell with
  | list items =>
    rw [Cell.get?] at h
    cases hkey : listIndex? key with
    | none =>
      rw [hkey] at h
      cases h
    | some i =>
      rw [hkey] at h
      exact List.mem_of_getElem? h
  | map fields => exact List.mem_map.mpr ⟨(key, v), fields.get?_eq_some_iff.mp h, rfl⟩

/-- Giving a value to a key adds no other value. -/
theorem mem_values_of_set (h : cell.set key v = .ok cell') (hw : w ∈ cell'.values) :
    w = v ∨ w ∈ cell.values := by
  cases cell with
  | list items =>
    rw [set] at h
    cases hkey : listIndex? key with
    | none =>
      rw [hkey] at h
      cases h
    | some i =>
      rw [hkey] at h
      dsimp only at h
      split at h
      · cases h
        exact (List.mem_or_eq_of_mem_set hw).symm
      · split at h <;> cases h
        exact (List.mem_append.mp hw).symm.imp_left List.mem_singleton.mp
  | map fields =>
    cases h
    obtain ⟨e, he, rfl⟩ := List.mem_map.mp hw
    rcases OrderedMap.mem_entries_insert he with rfl | he
    · exact Or.inl rfl
    · exact Or.inr (List.mem_map_of_mem he)

end Cell

namespace Graph
variable {g g' : Graph} {h : Handle} {cell : Cell} {key : String} {v w : Value}

/-- A value that is a container is one of the graph's. -/
def Holds (g : Graph) : Value → Prop
  | .container h => h < g.cells.size
  | _ => True

/-- **A graph is closed** if all containers that occur in it are its own. -/
def Closed (g : Graph) : Prop := ∀ h, ∀ v ∈ (g.read h).values, g.Holds v

theorem Holds.mono (hv : g.Holds v) (hle : g.cells.size ≤ g'.cells.size) : g'.Holds v := by
  cases v with
  | container h => exact Nat.lt_of_lt_of_le hv hle
  | _ => trivial

/-- A handle of no container reads as an empty list. -/
theorem read_of_size_le (hle : g.cells.size ≤ h) : g.read h = .list [] := by
  simp [read, hle]

theorem closed_empty : ({} : Graph).Closed := fun h v hv => by
  simp [read, Cell.values] at hv

theorem Closed.holds_of_getKey? (hg : g.Closed) (hv : g.getKey? w key = some v) : g.Holds v := by
  cases w with
  | container h => exact hg h v (Cell.mem_values_of_get? hv)
  | _ => cases hv

/-! ## Growing -/

theorem size_alloc (g : Graph) (cell : Cell) :
    (g.alloc cell).2.cells.size = g.cells.size + 1 := Array.size_push _

theorem Closed.write (hg : g.Closed) (hcell : ∀ v ∈ cell.values, g.Holds v) (h : Handle) :
    (g.write h cell).Closed := by
  intro k v hv
  refine Holds.mono (g := g) ?_ (Nat.le_of_eq (g.size_write h cell).symm)
  by_cases hk : k = h
  · subst hk
    by_cases hlt : k < g.cells.size
    · rw [g.read_write_self hlt] at hv
      exact hcell v hv
    · rw [read_of_size_le (g.size_write k cell ▸ Nat.not_lt.mp hlt)] at hv
      cases hv
  · rw [g.read_write_of_ne hk] at hv
    exact hg k v hv

theorem Closed.alloc (hg : g.Closed) (hcell : ∀ v ∈ cell.values, g.Holds v) :
    (g.alloc cell).2.Closed := by
  intro k v hv
  refine Holds.mono (g := g) ?_ (by rw [size_alloc]; exact Nat.le_succ _)
  rcases Nat.lt_trichotomy k g.cells.size with hlt | rfl | hgt
  · rw [g.read_alloc_of_lt hlt] at hv
    exact hg k v hv
  · rw [g.read_alloc_self] at hv
    exact hcell v hv
  · rw [read_of_size_le (size_alloc g cell ▸ hgt)] at hv
    cases hv

theorem holds_of_scalar (hv : v.isContainer = false) : g.Holds v := by
  cases v with
  | container h => cases hv
  | _ => trivial

/-- **A graph has grown by new values** and is closed.  Whatever is in a new container is new. -/
structure Grown (g : Graph) (values : List Value) (g' : Graph) : Prop where
  /-- It is closed. -/
  closed : g'.Closed
  /-- It has lost nothing. -/
  size_le : g.cells.size ≤ g'.cells.size
  /-- It has the values. -/
  holds : ∀ v ∈ values, g'.Holds v
  /-- What it had is as it was. -/
  kept : ∀ h < g.cells.size, g'.read h = g.read h
  /-- The values are new. -/
  fresh : ∀ h, .container h ∈ values → g.cells.size ≤ h
  /-- New containers have new ones inside, made before them. -/
  below : ∀ h, g.cells.size ≤ h → ∀ k, .container k ∈ (g'.read h).values →
    g.cells.size ≤ k ∧ k < h

/-- A graph need not grow for scalars. -/
theorem Grown.of_scalars (hg : g.Closed) {values : List Value}
    (hvalues : ∀ v ∈ values, v.isContainer = false) : g.Grown values g where
  closed := hg
  size_le := Nat.le_refl _
  holds v hv := holds_of_scalar (hvalues v hv)
  kept _ _ := rfl
  fresh h hh := by cases hvalues _ hh
  below h hh k hk := by
    rw [read_of_size_le hh] at hk
    cases hk

theorem Grown.alloc {values : List Value} (hgrown : g.Grown values g')
    (hcell : ∀ v ∈ cell.values, v ∈ values) :
    g.Grown [.container g'.cells.size] (g'.alloc cell).2 where
  closed := hgrown.closed.alloc fun v hv => hgrown.holds v (hcell v hv)
  size_le := by
    rw [size_alloc]
    exact Nat.le_succ_of_le hgrown.size_le
  holds := by
    intro v hv
    rw [List.mem_singleton.mp hv]
    show g'.cells.size < (g'.alloc cell).2.cells.size
    rw [size_alloc]
    exact Nat.lt_succ_self _
  kept h hh := (g'.read_alloc_of_lt (Nat.lt_of_lt_of_le hh hgrown.size_le) cell).trans
    (hgrown.kept h hh)
  fresh h hh := by
    cases List.mem_singleton.mp hh
    exact hgrown.size_le
  below := by
    intro h hh k hk
    rcases Nat.lt_trichotomy h g'.cells.size with hlt | rfl | hgt
    · rw [g'.read_alloc_of_lt hlt] at hk
      exact hgrown.below h hh k hk
    · rw [g'.read_alloc_self] at hk
      exact ⟨hgrown.fresh k (hcell _ hk), hgrown.holds _ (hcell _ hk)⟩
    · rw [read_of_size_le (size_alloc g' cell ▸ hgt)] at hk
      cases hk

theorem Grown.append {values values' : List Value} {g₁ : Graph} (hfirst : g.Grown values g₁)
    (hrest : g₁.Grown values' g') : g.Grown (values ++ values') g' where
  closed := hrest.closed
  size_le := Nat.le_trans hfirst.size_le hrest.size_le
  holds v hv := (List.mem_append.mp hv).elim
    (fun hv => (hfirst.holds v hv).mono hrest.size_le) (hrest.holds v)
  kept h hh := (hrest.kept h (Nat.lt_of_lt_of_le hh hfirst.size_le)).trans (hfirst.kept h hh)
  fresh h hh := (List.mem_append.mp hh).elim (hfirst.fresh h) fun hh =>
    Nat.le_trans hfirst.size_le (hrest.fresh h hh)
  below := by
    intro h hh k hk
    rcases Nat.lt_or_ge h g₁.cells.size with hlt | hge
    · rw [hrest.kept h hlt] at hk
      exact hfirst.below h hh k hk
    · obtain ⟨hle, hlt⟩ := hrest.below h hge k hk
      exact ⟨Nat.le_trans hfirst.size_le hle, hlt⟩

/-! ## Documents -/

theorem mem_values_ofList {members : List (String × Value)}
    (hv : v ∈ (OrderedMap.ofList members).values) : v ∈ members.map Prod.snd := by
  have hfold : ∀ (members : List (String × Value)) (fields : OrderedMap String Value),
      v ∈ (members.foldl (fun m e => m.insert e.1 e.2) fields).values →
        v ∈ fields.values ∨ v ∈ members.map Prod.snd := by
    intro members
    induction members with
    | nil => exact fun _ hv => Or.inl hv
    | cons e rest ih =>
      intro fields hv
      rcases ih _ hv with hv | hv
      · obtain ⟨e', he', rfl⟩ := List.mem_map.mp hv
        rcases OrderedMap.mem_entries_insert he' with rfl | he'
        · exact Or.inr List.mem_cons_self
        · exact Or.inl (List.mem_map_of_mem he')
      · exact Or.inr (List.mem_cons_of_mem _ hv)
  rcases hfold members .empty hv with hv | hv
  · cases hv
  · exact hv

mutual

theorem Closed.addJson {g : Graph} (hg : g.Closed) (json : Json) :
    g.Grown [(g.addJson json).1] (g.addJson json).2 := by
  match json with
  | .null | .bool _ | .integer _ | .float _ | .string _ =>
    refine Grown.of_scalars hg fun v hv => ?_
    rw [List.mem_singleton.mp hv]
    rfl
  | .array items =>
    rw [Graph.addJson]
    exact (hg.addItems items).alloc fun _ hv => hv
  | .object members =>
    rw [Graph.addJson]
    exact (hg.addMembers members).alloc fun _ hv => mem_values_ofList hv

theorem Closed.addItems {g : Graph} (hg : g.Closed) (items : List Json) :
    g.Grown (g.addItems items).1 (g.addItems items).2 := by
  match items with
  | [] => exact Grown.of_scalars hg nofun
  | item :: rest =>
    rw [Graph.addItems]
    have hitem := hg.addJson item
    exact hitem.append (hitem.closed.addItems rest)

theorem Closed.addMembers {g : Graph} (hg : g.Closed) (members : List (String × Json)) :
    g.Grown ((g.addMembers members).1.map Prod.snd) (g.addMembers members).2 := by
  match members with
  | [] => exact Grown.of_scalars hg nofun
  | (key, json) :: rest =>
    rw [Graph.addMembers]
    have hmember := hg.addJson json
    exact hmember.append (hmember.closed.addMembers rest)

end

end Graph

end GraphPath
