import GraphPath.Graph.Keys
import GraphPath.Proofs.OrderedMap

/-! # Own keys

The keys of a container tell its entries apart (`Cell.keys_nodup`), and the
entries are what the keys find (`Cell.get?_of_mem_entries`).  For a map this is
how its table is built.  For a list it is a fact about numbers: a position is
written in decimal and read back from it (`Digits.read?_toDigits`).

Reading stops at `Digits.limit`, so a list must not be longer than that for all its
items to be found.  No memory holds one that is; `Graph.Indexable` says so.
-/

namespace GraphPath

/-! ## Positions in decimal -/

namespace Digits

theorem valueFrom_eq_ofDigitChars (n : Nat) (text : List Char) :
    valueFrom n text = Nat.ofDigitChars 10 text n := by
  rw [valueFrom, Nat.ofDigitChars_eq_foldl]
  rfl

/-- **A number is read back from its decimal digits.** -/
theorem read?_toDigits {n : Nat} (hn : n < limit) : read? (Nat.toDigits 10 n) = some n := by
  have hvalue : value (Nat.toDigits 10 n) = n := by
    rw [value, valueFrom_eq_ofDigitChars, Nat.ofDigitChars_ten_toDigits]
  have hdigits : (Nat.toDigits 10 n).all Char.isDigit = true :=
    List.all_eq_true.mpr fun c hc => Nat.isDigit_of_mem_toDigits (by decide) (by decide) hc
  have hsome : (Nat.toDigits 10 n).isEmpty = false :=
    List.isEmpty_eq_false_iff.mpr Nat.toDigits_ne_nil
  simp [read?, hvalue, hdigits, hsome, hn]

end Digits

theorem listIndex?_repr {n : Nat} (hn : n < Digits.limit) : listIndex? n.repr = some n := by
  rw [listIndex?, Nat.toList_repr, Digits.read?_toDigits hn]

theorem repr_injective : Function.Injective Nat.repr := by
  -- `listIndex?_repr` would not do, since it is bounded
  intro m n h
  have hdigits : Nat.toDigits 10 m = Nat.toDigits 10 n := by
    rw [← Nat.toList_repr, ← Nat.toList_repr, h]
  rw [← Nat.ofDigitChars_ten_toDigits (n := m), hdigits, Nat.ofDigitChars_ten_toDigits]

/-! ## Keys and entries of a cell -/

namespace Cell

/-- **No key occurs twice.** -/
theorem keys_nodup (cell : Cell) : cell.keys.Nodup := by
  cases cell with
  | list items =>
    exact List.pairwise_map.mpr (List.nodup_range.imp fun hne heq => hne (repr_injective heq))
  | map fields => exact fields.keys_nodup

theorem length_keys (cell : Cell) : cell.keys.length = cell.values.length := by
  cases cell <;> simp [keys, values, OrderedMap.keys, OrderedMap.values]

theorem length_keys_eq_size (cell : Cell) : cell.keys.length = cell.size := by
  cases cell <;> simp [keys, size, OrderedMap.keys, OrderedMap.size]

/-- The keys are those of the entries. -/
theorem map_fst_entries (cell : Cell) : cell.entries.map Prod.fst = cell.keys :=
  List.map_fst_zip (Nat.le_of_eq cell.length_keys)

/-- The values are those of the entries. -/
theorem map_snd_entries (cell : Cell) : cell.entries.map Prod.snd = cell.values :=
  List.map_snd_zip (Nat.le_of_eq cell.length_keys.symm)

theorem entries_map (fields : OrderedMap String Value) : (Cell.map fields).entries = fields.entries :=
  (List.zip_of_prod rfl rfl).symm

theorem mem_entries_list {items : List Value} {key : String} {v : Value} :
    (key, v) ∈ (Cell.list items).entries ↔ ∃ i, key = Nat.repr i ∧ items[i]? = some v := by
  rw [List.mem_iff_getElem?]
  refine exists_congr fun i => ?_
  show (List.zip ((List.range items.length).map Nat.repr) items)[i]? = some (key, v) ↔ _
  rw [List.getElem?_zip_eq_some, List.getElem?_map, Option.map_eq_some_iff]
  constructor
  · rintro ⟨⟨j, hj, rfl⟩, hv⟩
    rw [List.getElem?_range (List.getElem?_eq_some_iff.mp hv).1] at hj
    cases hj
    exact ⟨rfl, hv⟩
  · rintro ⟨rfl, hv⟩
    exact ⟨⟨i, List.getElem?_range (List.getElem?_eq_some_iff.mp hv).1, rfl⟩, hv⟩

/-- **Every position can be named.**  Only a list has positions for keys. -/
def Nameable : Cell → Prop
  | .list items => items.length ≤ Digits.limit
  | .map _ => True

theorem nameable_of_size_le {cell : Cell} (hcell : cell.size ≤ Digits.limit) : cell.Nameable := by
  cases cell with
  | list items => exact hcell
  | map fields => trivial

/-- **Every entry is found under its key**, in a list that is not too long to be counted. -/
theorem get?_of_mem_entries {cell : Cell} (hcell : cell.Nameable) {key : String}
    {v : Value} (h : (key, v) ∈ cell.entries) : cell.get? key = some v := by
  cases cell with
  | list items =>
    obtain ⟨i, rfl, hv⟩ := mem_entries_list.mp h
    have hi : i < items.length := (List.getElem?_eq_some_iff.mp hv).1
    rw [get?, listIndex?_repr (Nat.lt_of_lt_of_le hi hcell)]
    exact hv
  | map fields =>
    rw [entries_map] at h
    exact fields.get?_eq_some_iff.mpr h

end Cell

namespace Graph
variable {g : Graph}

/-- Every container has no more entries than positions can be named. -/
def Indexable (g : Graph) : Prop := ∀ h, (g.read h).size ≤ Digits.limit

/-- Only containers that exist have entries. -/
theorem lt_size_of_mem_entries {h : Handle} {e : String × Value} (he : e ∈ (g.read h).entries) :
    h < g.cells.size := by
  by_cases hh : h < g.cells.size
  · exact hh
  · rw [read, Array.getD, dif_neg hh] at he
    cases he

/-- The keys of a value are those of its children. -/
theorem map_fst_children (v : Value) : (g.children v).map Prod.fst = g.ownKeys v := by
  cases v with
  | container h => exact (g.read h).map_fst_entries
  | _ => rfl

theorem ownKeys_nodup (v : Value) : (g.ownKeys v).Nodup := by
  cases v with
  | container h => exact (g.read h).keys_nodup
  | _ => exact List.nodup_nil

end Graph

end GraphPath
