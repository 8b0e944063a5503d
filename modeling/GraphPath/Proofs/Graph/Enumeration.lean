import GraphPath.Proofs.Graph.Document
import GraphPath.Proofs.Graph.Keys
import GraphPath.Proofs.Resolve.Atomic

/-! # Own keys, one for each slot

The own keys of a container are a complete list of its slots: asked for one by one, they give
its values in their order, and none of them twice (`Cell.map_get?_keys`).  Giving a value to a
key does not disturb this.  It fills the slot that the key names, whose own key may be written
differently, since a list reads `01` as its position 1; the other slots keep their values
(`Cell.Fills.get?_of_not_names`), and there is at most one new own key, behind the others
(`Cell.Fills.keys`).

`Graph.ownKeys_enumerate` puts this together for the containers of a graph.
-/

namespace GraphPath

namespace Cell
variable {cell cell' : Cell} {key other : String} {v : Value} {i : Nat}

/-- **The own keys find the values**, one by one and in their order. -/
theorem map_get?_keys (hcell : cell.Nameable) :
    cell.keys.map cell.get? = cell.values.map some := by
  calc cell.keys.map cell.get?
    _ = cell.entries.map fun e => cell.get? e.1 := by
      rw [← map_fst_entries, List.map_map]
      rfl
    _ = cell.entries.map fun e => some e.2 :=
      List.map_congr_left fun _ he => get?_of_mem_entries hcell he
    _ = cell.values.map some := by
      rw [← map_snd_entries, List.map_map]
      rfl

/-- The own key of a list's position. -/
theorem getElem?_keys_list {items : List Value} (hkey : (Cell.list items).keys[i]? = some key) :
    key = i.repr ∧ i < items.length := by
  obtain ⟨j, hj, rfl⟩ := Option.map_eq_some_iff.mp (List.getElem?_map .. ▸ hkey)
  obtain ⟨hi, rfl⟩ := List.getElem?_eq_some_iff.mp hj
  rw [List.length_range] at hi
  exact ⟨by rw [List.getElem_range], hi⟩

/-! ## After a value was given to a key -/

/-- **An own key that names another slot finds what it found before.** -/
theorem Fills.get?_of_not_names (hfills : Fills key v cell cell') (hcell : cell.Nameable)
    (hother : cell.keys[i]? = some other) (hnames : ¬ cell.Names key i) :
    cell'.get? other = cell.get? other := by
  rcases hfills with hreplaces | happends
  · cases hreplaces with
    | @item front back old hkey =>
      obtain ⟨rfl, hi⟩ := getElem?_keys_list hother
      have hne : front.length ≠ i := fun heq => hnames (heq ▸ hkey)
      have hindex : listIndex? i.repr = some i := listIndex?_repr (Nat.lt_of_lt_of_le hi hcell)
      have hset : front ++ v :: back = (front ++ old :: back).set front.length v := by simp
      rw [Cell.get?, Cell.get?, hindex, hset]
      exact List.getElem?_set_ne hne
    | @field fields fields' front back old hold hnew =>
      have hne : other ≠ key := fun heq => hnames (heq ▸ hother)
      refine Option.ext fun w => ?_
      show fields'.get? other = some w ↔ fields.get? other = some w
      rw [OrderedMap.get?_eq_some_iff, OrderedMap.get?_eq_some_iff, hold, hnew]
      simp [hne]
  · cases happends with
    | @item items hkey =>
      obtain ⟨rfl, hi⟩ := getElem?_keys_list hother
      have hindex : listIndex? i.repr = some i := listIndex?_repr (Nat.lt_of_lt_of_le hi hcell)
      rw [Cell.get?, Cell.get?, hindex]
      exact List.getElem?_append_left hi
    | @field fields fields' hkey hnew =>
      have hne : other ≠ key := fun heq => hnames (heq ▸ hother)
      refine Option.ext fun w => ?_
      show fields'.get? other = some w ↔ fields.get? other = some w
      rw [OrderedMap.get?_eq_some_iff, OrderedMap.get?_eq_some_iff, hnew]
      simp [hne]

/-- **The own keys stay as they are, or there is one more behind them.** -/
theorem Fills.keys (hfills : Fills key v cell cell') :
    cell'.keys = cell.keys ∨ ∃ new, new ∉ cell.keys ∧ cell'.keys = cell.keys ++ [new] := by
  rcases hfills with hreplaces | happends
  · refine Or.inl ?_
    cases hreplaces with
    | item hkey => simp [Cell.keys]
    | field hold hnew => simp [Cell.keys, OrderedMap.keys, hold, hnew]
  · have hkeys : ∃ new, cell'.keys = cell.keys ++ [new] := by
      cases happends with
      | @item items hkey => exact ⟨items.length.repr, by simp [Cell.keys, List.range_succ]⟩
      | field hkey hnew => exact ⟨key, by simp [Cell.keys, OrderedMap.keys, hnew]⟩
    obtain ⟨new, hkeys⟩ := hkeys
    -- it is not among the others, since no key occurs twice
    have hnodup : (cell.keys ++ [new]).Nodup := hkeys ▸ cell'.keys_nodup
    have hnew : new ∉ cell.keys := fun hmem =>
      (List.nodup_append.mp hnodup).2.2 _ hmem _ (List.mem_singleton_self new) rfl
    exact Or.inr ⟨new, hnew, hkeys⟩

end Cell

namespace Graph
variable {g : Graph} {h : Handle}

/-- **A key of a container has been given a value**, as far as its own keys can tell. -/
structure KeyGiven (g : Graph) (h : Handle) (key : String) (v : Value) (g' : Graph) : Prop where
  /-- The key finds the value. -/
  found : g'.getKey? (.container h) key = some v
  /-- The own keys of other slots find what they found. -/
  others : ∀ i other, (g.ownKeys (.container h))[i]? = some other → ¬ (g.read h).Names key i →
    g'.getKey? (.container h) other = g.getKey? (.container h) other
  /-- There is at most one new own key, behind the others. -/
  keys : g'.ownKeys (.container h) = g.ownKeys (.container h) ∨
    ∃ new, new ∉ g.ownKeys (.container h) ∧
      g'.ownKeys (.container h) = g.ownKeys (.container h) ++ [new]

theorem keyGiven_write {key : String} {v : Value} {cell : Cell} (hlt : h < g.cells.size)
    (hcell : (g.read h).Nameable) (hset : (g.read h).set key v = .ok cell) :
    g.KeyGiven h key v (g.write h cell) := by
  have hfills := Cell.fills_of_set hset
  have hread : (g.write h cell).read h = cell := g.read_write_self hlt cell
  constructor
  · rw [getKey?, hread]
    exact hfills.get?
  · intro i other hother hnames
    rw [getKey?, hread]
    exact hfills.get?_of_not_names hcell hother hnames
  · rw [ownKeys, hread]
    exact hfills.keys

/-- **The own keys of a container enumerate its slots**: no key occurs twice, and one by one they
are there and find its values, in their order.  Any key is there exactly if it finds a value.
Giving a value to a key leaves the slots of the others alone and adds one own key at most, behind
the others, or else it fails and changes nothing. -/
theorem ownKeys_enumerate (hlt : h < g.cells.size) (hcell : (g.read h).Nameable) :
    let target := Value.container h
    (g.ownKeys target).Nodup ∧
    (g.ownKeys target).map (g.getKey? target) = (g.read h).values.map some ∧
    (∀ key ∈ g.ownKeys target, g.hasKey target key = true) ∧
    (∀ key, g.hasKey target key = true ↔ ∃ v, g.getKey? target key = some v) ∧
    ∀ key v, match Edit.assign target key v g with
      | .ok () g' => g.KeyGiven h key v g'
      | .error _ g' => g' = g := by
  intro target
  have hfound : (g.ownKeys target).map (g.getKey? target) = (g.read h).values.map some :=
    Cell.map_get?_keys hcell
  have hhas : ∀ key, g.hasKey target key = true ↔ ∃ v, g.getKey? target key = some v := fun key => by
    rw [hasKey, (g.read h).has_eq_isSome_get?, Option.isSome_iff_exists]
    rfl
  refine ⟨g.ownKeys_nodup target, hfound, fun key hkey => ?_, hhas, fun key v => ?_⟩
  · have hvalue : g.getKey? target key ∈ (g.read h).values.map some :=
      hfound ▸ List.mem_map_of_mem hkey
    obtain ⟨v, -, hv⟩ := List.mem_map.mp hvalue
    exact (hhas key).mpr ⟨v, hv.symm⟩
  · cases hassign : Edit.assign target key v g with
    | ok _ g' =>
      obtain ⟨k, cell, heq, hset, rfl⟩ := Edit.assign_eq_ok_iff.mp hassign
      obtain rfl : h = k := Value.container.inj heq
      exact keyGiven_write hlt hcell hset
    | error failure g' => exact Edit.eq_of_assign_error hassign

/-- A list that reads `01` as its last position, and takes `2` as a new one. -/
theorem ownKeys_enumerate_list :
    let g : Graph := { cells := #[.map (.ofList [("", .null)]), .list [.null, .boolean true]] }
    let target := Value.container 1
    let written : Graph :=
      { cells := #[.map (.ofList [("", .null)]), .list [.null, .string "b"]] }
    let longer : Graph :=
      { cells := #[.map (.ofList [("", .null)]), .list [.null, .boolean true, .string "b"]] }
    1 < g.cells.size ∧ (g.read 1).Nameable ∧ g.ownKeys target = ["0", "1"] ∧
      g.KeyGiven 1 "01" (.string "b") written ∧ written.ownKeys target = ["0", "1"] ∧
      g.KeyGiven 1 "2" (.string "b") longer ∧ longer.ownKeys target = ["0", "1", "2"] := by
  intro g target written longer
  have hlt : 1 < g.cells.size := by decide
  have hcell : (g.read 1).Nameable := by
    show 2 ≤ Digits.limit
    decide
  obtain ⟨-, -, -, -, hassign⟩ := ownKeys_enumerate hlt hcell
  exact ⟨hlt, hcell, by decide, hassign "01" (.string "b"), by decide,
    hassign "2" (.string "b"), by decide⟩

end Graph

end GraphPath
