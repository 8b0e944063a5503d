import GraphPath.Proofs.Graph.Keys
import GraphPath.Proofs.Graph.Reach
import GraphPath.Proofs.Resolve.Success

/-! # Writing by the key of a modified word

A modified word is looked up first and taken for a pattern only where it is not found.  A
write by its key therefore replaces the value of the key if it is there
(`Step.byModifiedKey_some_of_getKey?`), and otherwise fails or is a write by a pattern
(`Step.byModifiedKey_some_of_missing`).

**A write by a pattern gives the value to every own key that the pattern admits**, and to no
other (`Step.byPattern_writes`).  The keys are gone through one by one, as they were when the
step began, and each of them is still there when its turn comes; what this does to a graph is
told by the entries of the value they are keys of (`Graph.Overwritten`).
-/

namespace GraphPath

/-! ## Entries, overwritten -/

namespace Cell
variable {cell cell' : Cell} {key : String} {v : Value}

/-- **The chosen keys have been given a value**; the others, and the order, are as they were. -/
def Overwrites (chosen : String → Bool) (v : Value) (cell cell' : Cell) : Prop :=
  cell'.entries = cell.entries.map fun e => if chosen e.1 then (e.1, v) else e

/-- An own key can be given another value, and this is all that changes. -/
theorem exists_overwrites (hsize : cell.size ≤ Digits.limit) (hkey : key ∈ cell.keys) (v : Value) :
    ∃ cell', cell.set key v = .ok cell' ∧ Overwrites (· == key) v cell cell' := by
  cases cell with
  | list items =>
    obtain ⟨i, hi, rfl⟩ := List.mem_map.mp hkey
    have hi : i < items.length := List.mem_range.mp hi
    refine ⟨.list (items.set i v), ?_, ?_⟩
    · rw [set, listIndex?_repr (Nat.lt_of_lt_of_le hi hsize)]
      exact if_pos hi
    · -- position by position
      refine List.ext_getElem? fun j => ?_
      simp only [entries, keys, values, List.length_set, List.getElem?_map, List.zip,
        List.getElem?_zipWith, List.getElem?_set]
      by_cases hj : j < items.length
      · rw [List.getElem?_range hj, List.getElem?_eq_getElem hj]
        by_cases hij : i = j
        · subst hij
          simp [hi]
        · have hne : j.repr ≠ i.repr := fun h => hij (repr_injective h).symm
          simp [hij, hne]
      · simp [hj]
  | map fields =>
    refine ⟨.map (fields.insert key v), rfl, ?_⟩
    have hput : (fields.insert key v).entries =
        fields.entries.map fun e => if e.1 = key then (e.1, v) else e :=
      OrderedMap.put_eq_map fields.nodup hkey v
    simpa only [Overwrites, entries_map, beq_iff_eq] using hput

end Cell

namespace Graph
variable {g g' g'' : Graph} {target v : Value} {h : Handle} {key : String} {cell : Cell}
  {chosen chosen' : String → Bool}

/-- **The chosen keys of a value have been given another one**, and nothing else is changed. -/
structure Overwritten (g : Graph) (target : Value) (chosen : String → Bool) (v : Value)
    (g' : Graph) : Prop where
  /-- No container is made, and none is lost. -/
  size_eq : g'.cells.size = g.cells.size
  /-- A list is still a list, and a map a map. -/
  kind_eq : g'.kind target = g.kind target
  /-- Of its entries, those with a chosen key have another value; all are where they were. -/
  children_eq : g'.children target =
    (g.children target).map fun e => if chosen e.1 then (e.1, v) else e
  /-- The other containers are as they were. -/
  frame : ∀ h, target ≠ .container h → g'.read h = g.read h

theorem overwritten_nothing (g : Graph) (target v : Value) :
    g.Overwritten target (fun _ => false) v g where
  size_eq := rfl
  kind_eq := rfl
  children_eq := by simp
  frame _ _ := rfl

theorem Overwritten.congr (hg : g.Overwritten target chosen v g')
    (hsame : ∀ key ∈ g.ownKeys target, chosen key = chosen' key) :
    g.Overwritten target chosen' v g' := by
  refine { hg with children_eq := hg.children_eq.trans (List.map_congr_left fun e he => ?_) }
  rw [hsame e.1 (map_fst_children target ▸ List.mem_map_of_mem he)]

theorem Overwritten.trans (hg : g.Overwritten target chosen v g')
    (hg' : g'.Overwritten target chosen' v g'') :
    g.Overwritten target (fun key => chosen key || chosen' key) v g'' where
  size_eq := hg'.size_eq.trans hg.size_eq
  kind_eq := hg'.kind_eq.trans hg.kind_eq
  children_eq := by
    rw [hg'.children_eq, hg.children_eq, List.map_map]
    refine List.map_congr_left fun e _ => ?_
    cases hchosen : chosen e.1 <;> simp [hchosen]
  frame h hne := (hg'.frame h hne).trans (hg.frame h hne)

/-- The keys are as they were. -/
theorem Overwritten.ownKeys (hg : g.Overwritten target chosen v g') :
    g'.ownKeys target = g.ownKeys target := by
  rw [← map_fst_children, ← map_fst_children, hg.children_eq, List.map_map]
  refine List.map_congr_left fun e _ => ?_
  cases hchosen : chosen e.1 <;> simp [hchosen]

theorem Overwritten.changesOnly (hg : g.Overwritten (.container h) chosen v g')
    (hlt : h < g.cells.size) : g.ChangesOnly h (Cell.Overwrites chosen v) g' where
  lt_size := hlt
  size_le := Nat.le_of_eq hg.size_eq.symm
  changed := hg.children_eq
  frame k _ hne := hg.frame k fun heq => hne (Value.container.inj heq).symm

/-- Only containers that exist have keys. -/
theorem exists_of_mem_ownKeys (hkey : key ∈ g.ownKeys target) :
    ∃ h, target = .container h ∧ h < g.cells.size := by
  rw [← map_fst_children] at hkey
  obtain ⟨e, he, rfl⟩ := List.mem_map.mp hkey
  cases target with
  | container h => exact ⟨h, rfl, lt_size_of_mem_entries he⟩
  | _ => cases he

/-- Giving a value to a key makes no list of a map, and no map of a list. -/
theorem kind_write_of_set (hlt : h < g.cells.size) (hset : (g.read h).set key v = .ok cell) :
    (g.write h cell).kind (.container h) = g.kind (.container h) := by
  rw [kind, kind, g.read_write_self hlt]
  cases hread : g.read h with
  | list items =>
    rw [hread, Cell.set] at hset
    repeat' split at hset
    all_goals cases hset <;> rfl
  | map fields =>
    rw [hread] at hset
    cases hset
    rfl

end Graph

/-! ## Writing -/

namespace Step
variable {g : Graph} {target v : Value} {h : Handle} {key pattern : String} {keys : List String}

/-- **An own key of a value is given another one**, and is there then. -/
theorem assign_ownKey (hsize : (g.ownKeys target).length ≤ Digits.limit)
    (hkey : key ∈ g.ownKeys target) (v : Value) :
    ∃ g', Edit.assign target key v g = .ok () g' ∧ g.Overwritten target (· == key) v g' ∧
      g'.getKey? target key = some v := by
  obtain ⟨h, rfl, hlt⟩ := Graph.exists_of_mem_ownKeys hkey
  obtain ⟨cell, hset, hcell⟩ :=
    Cell.exists_overwrites ((g.read h).length_keys_eq_size ▸ hsize) hkey v
  have hread : (g.write h cell).read h = cell := g.read_write_self hlt cell
  refine ⟨g.write h cell, Edit.assign_eq_ok_iff.mpr ⟨h, cell, rfl, hset, rfl⟩, ?_, ?_⟩
  · exact {
      size_eq := g.size_write h cell
      kind_eq := Graph.kind_write_of_set hlt hset
      children_eq := by
        rw [Graph.children, hread]
        exact hcell
      frame := fun k hne => g.read_write_of_ne (fun hk => hne (congrArg _ hk.symm)) cell }
  · rw [Graph.getKey?, hread]
    exact Cell.get?_of_set hset

/-- **Going through own keys of a value with another one to write** gives it to each of them. -/
theorem gather_writes (hsize : (g.ownKeys target).length ≤ Digits.limit)
    (hkeys : ∀ key ∈ keys, key ∈ g.ownKeys target) (v : Value) :
    ∃ g', gather target (some v) keys g = .ok (List.replicate keys.length v) g' ∧
      g.Overwritten target keys.contains v g' := by
  induction keys generalizing g with
  | nil => exact ⟨g, rfl, g.overwritten_nothing target v⟩
  | cons key rest ih =>
    -- the first key is given the value, and the others are still keys of the target
    obtain ⟨g₁, hassign, hfirst, hthere⟩ := assign_ownKey hsize (hkeys key List.mem_cons_self) v
    have hask : Edit.ask (fun g => g.getKey? target key) g₁ = .ok (some v) g₁ :=
      Edit.ask_eq_ok_iff.mpr ⟨hthere, rfl⟩
    obtain ⟨g', hrest, hothers⟩ : ∃ g', gather target (some v) rest g₁ =
        .ok (List.replicate rest.length v) g' ∧ g₁.Overwritten target rest.contains v g' := by
      refine ih ?_ fun key hkey => ?_
      · rwa [hfirst.ownKeys]
      · rw [hfirst.ownKeys]
        exact hkeys key (List.mem_cons_of_mem _ hkey)
    refine ⟨g', ?_, hfirst.trans hothers⟩
    show (Edit.assign target key v >>= fun _ => do
      let found? ← Edit.ask fun g => g.getKey? target key
      let others ← gather target (some v) rest
      pure (found?.toList ++ others)) g = _
    rw [bind_of_ok hassign, bind_of_ok hask, bind_of_ok hrest]
    rfl

/-- **A write by a pattern** gives the value to all own keys that the pattern admits, and answers
with a new list, the value once for each. -/
theorem byPattern_writes (hsize : (g.ownKeys target).length ≤ Digits.limit) (pattern : String)
    (v : Value) :
    let keys := (g.ownKeys target).filter (Pattern.admits pattern)
    ∃ g', g.Overwritten target (Pattern.admits pattern) v g' ∧
      byPattern target pattern (some v) g = .ok (g'.newList (List.replicate keys.length v)).1
        (g'.newList (List.replicate keys.length v)).2 := by
  intro keys
  have hask : Edit.ask (fun g => (g.ownKeys target).filter (Pattern.admits pattern)) g =
      .ok keys g := rfl
  have hown : ∀ key ∈ keys, key ∈ g.ownKeys target := fun key hkey => (List.mem_filter.mp hkey).1
  obtain ⟨g', hgather, hwritten⟩ := gather_writes hsize hown v
  refine ⟨g', hwritten.congr fun key hkey => ?_, ?_⟩
  · rw [Bool.eq_iff_iff, List.contains_iff_mem, List.mem_filter]
    exact and_iff_right hkey
  · unfold byPattern
    rw [bind_of_ok hask, bind_of_ok hgather]
    rfl

/-- Of the containers that are there, only the one that the keys belong to is changed. -/
theorem byPattern_some (hlt : h < g.cells.size) (hsize : (g.read h).size ≤ Digits.limit)
    (pattern : String) (v : Value) :
    ∃ w g', byPattern (.container h) pattern (some v) g = .ok w g' ∧
      g.ChangesOnly h (Cell.Overwrites (Pattern.admits pattern) v) g' := by
  have hkeys : (g.ownKeys (.container h)).length ≤ Digits.limit :=
    (g.read h).length_keys_eq_size ▸ hsize
  obtain ⟨g', hwritten, hwrite⟩ := byPattern_writes hkeys pattern v
  exact ⟨_, _, hwrite, (hwritten.changesOnly hlt).preserved (g'.preservedIn_newList _)⟩

/-- A text with a wildcard in it that is no key is taken for a pattern. -/
theorem byModifiedKey_of_isPattern (hmissing : g.getKey? target key = none)
    (hpattern : Pattern.isPattern key = true) (new? : Option Value) :
    byModifiedKey target key new? g = byPattern target key new? g := by
  have hask : Edit.ask (fun g => g.hasKey target key) g = .ok false g :=
    Edit.ask_eq_ok_iff.mpr ⟨by rw [g.hasKey_eq, hmissing]; rfl, rfl⟩
  unfold byModifiedKey
  rw [bind_of_ok hask, if_neg Bool.false_ne_true, if_pos hpattern]

/-- Writing by the key of a modified word, where the key is there. -/
theorem byModifiedKey_some_of_getKey? {old : Value}
    (hfound : g.getKey? (.container h) key = some old) (v : Value) :
    ∃ g', byModifiedKey (.container h) key (some v) g = .ok v g' ∧
      g.ChangesOnly h (Cell.Replaces key v) g' := by
  have hask : Edit.ask (fun g => g.hasKey (.container h) key) g = .ok true g :=
    Edit.ask_eq_ok_iff.mpr ⟨by rw [Graph.hasKey_eq, hfound]; rfl, rfl⟩
  have hlt : h < g.cells.size := (Graph.inside_of_getKey? hfound).lt_size
  obtain ⟨cell, hset, hcell⟩ := Cell.exists_replaces hfound v
  have hassign : Edit.assign (.container h) key v g = .ok () (g.write h cell) :=
    Edit.assign_eq_ok_iff.mpr ⟨h, cell, rfl, hset, rfl⟩
  refine ⟨g.write h cell, ?_, Graph.changesOnly_write hlt hcell⟩
  unfold byModifiedKey
  rw [bind_of_ok hask, if_pos rfl]
  exact bind_of_ok hassign

/-- Where it is missing, it is taken for a pattern or cannot be written. -/
theorem byModifiedKey_some_of_missing (hmissing : g.getKey? (.container h) key = none)
    (v : Value) :
    byModifiedKey (.container h) key (some v) g =
      if Pattern.isPattern key then byPattern (.container h) key (some v) g
      else .error (.noKey key (g.kind (.container h))) g := by
  have hask : Edit.ask (fun g => g.hasKey (.container h) key) g = .ok false g :=
    Edit.ask_eq_ok_iff.mpr ⟨by rw [Graph.hasKey_eq, hmissing]; rfl, rfl⟩
  unfold byModifiedKey
  rw [bind_of_ok hask, if_neg Bool.false_ne_true]
  split <;> rfl

end Step

end GraphPath
