import GraphPath.OrderedMap

/-! # Ordered maps, pair by pair

`OrderedMap` describes its operations by lookups and by the order of keys.  Two
further views are needed where a whole table has to obey a rule: which pairs a
map can hold after a change (`mem_entries_insert`, `mem_entries_filter`), and
that a pair is held exactly if a lookup of its key finds it (`get?_eq_some_iff`).
From the second follows what a lookup finds in a map that was filtered
(`get?_filter`).
-/

namespace GraphPath.OrderedMap
variable {κ α : Type} [DecidableEq κ]

omit [DecidableEq κ] in
theorem mem_entries_filter {m : OrderedMap κ α} {p : κ → α → Bool} {e : κ × α} :
    e ∈ (m.filter p).entries ↔ e ∈ m.entries ∧ p e.1 e.2 = true := List.mem_filter

theorem mem_put {k : κ} {v : α} {l : List (κ × α)} {e : κ × α} (h : e ∈ put k v l) :
    e = (k, v) ∨ e ∈ l := by
  induction l with
  | nil => exact Or.inl (List.mem_singleton.mp h)
  | cons head rest ih =>
    obtain ⟨k', v'⟩ := head
    by_cases hk : k = k'
    · rw [put, if_pos hk] at h
      exact (List.mem_cons.mp h).imp_right (List.mem_cons_of_mem _)
    · rw [put, if_neg hk] at h
      rcases List.mem_cons.mp h with rfl | h
      · exact Or.inr List.mem_cons_self
      · exact (ih h).imp_right (List.mem_cons_of_mem _)

/-- Giving another value to a key leaves all pairs in their places. -/
theorem put_of_lookup {k : κ} {v old : α} {l : List (κ × α)} (h : l.lookup k = some old) :
    ∃ front back, l = front ++ (k, old) :: back ∧ put k v l = front ++ (k, v) :: back := by
  induction l with
  | nil => cases h
  | cons head rest ih =>
    obtain ⟨k', v'⟩ := head
    by_cases hk : k = k'
    · subst hk
      rw [List.lookup_cons_self] at h
      cases h
      exact ⟨[], rest, rfl, if_pos rfl⟩
    · have hb : (k == k') = false := by simpa using hk
      rw [List.lookup_cons, hb] at h
      obtain ⟨front, back, hrest, hput⟩ := ih h
      exact ⟨(k', v') :: front, back, by rw [hrest]; rfl, by rw [put, if_neg hk, hput]; rfl⟩

/-- The same, pair by pair. -/
theorem put_eq_map {k : κ} {l : List (κ × α)} (hl : (l.map Prod.fst).Nodup)
    (hk : k ∈ l.map Prod.fst) (v : α) :
    put k v l = l.map fun e => if e.1 = k then (e.1, v) else e := by
  induction l with
  | nil => cases hk
  | cons head rest ih =>
    obtain ⟨k', v'⟩ := head
    obtain ⟨hfresh, hrest⟩ := List.nodup_cons.mp hl
    by_cases hkey : k = k'
    · subst hkey
      have hothers : rest.map (fun e => if e.1 = k then (e.1, v) else e) = rest := by
        refine (List.map_congr_left fun e he => if_neg fun heq => hfresh ?_).trans
          (List.map_id' rest)
        exact List.mem_map.mpr ⟨e, he, heq⟩
      rw [put, if_pos rfl, List.map_cons, hothers, if_pos rfl]
    · have hmem : k ∈ rest.map Prod.fst := (List.mem_cons.mp hk).resolve_left hkey
      rw [put, if_neg hkey, List.map_cons, if_neg (Ne.symm hkey), ih hrest hmem]

theorem mem_of_lookup {k : κ} {v : α} {l : List (κ × α)} (h : l.lookup k = some v) :
    (k, v) ∈ l := by
  obtain ⟨front, back, rfl, -⟩ := put_of_lookup (v := v) h
  exact List.mem_append_right front List.mem_cons_self

/-- **Giving a value to a key adds no other pair.** -/
theorem mem_entries_insert {m : OrderedMap κ α} {k : κ} {v : α} {e : κ × α}
    (h : e ∈ (m.insert k v).entries) : e = (k, v) ∨ e ∈ m.entries := mem_put h

theorem lookup_eq_some_iff_mem {l : List (κ × α)} (hl : (l.map Prod.fst).Nodup) {k : κ} {v : α} :
    l.lookup k = some v ↔ (k, v) ∈ l := by
  induction l with
  | nil => simp
  | cons head rest ih =>
    obtain ⟨k', v'⟩ := head
    rw [List.map_cons, List.nodup_cons] at hl
    by_cases hk : k = k'
    · subst hk
      have habsent : (k, v) ∉ rest := fun h =>
        hl.1 (List.mem_map.mpr ⟨(k, v), h, rfl⟩)
      simp [habsent, eq_comm]
    · have hb : (k == k') = false := by simpa using hk
      simp [List.lookup_cons, hb, hk, ih hl.2]

/-- **A lookup finds exactly the pairs a map holds.** -/
theorem get?_eq_some_iff (m : OrderedMap κ α) {k : κ} {v : α} :
    m.get? k = some v ↔ (k, v) ∈ m.entries := lookup_eq_some_iff_mem m.nodup

/-- A lookup finds nothing exactly if the key is not there. -/
theorem get?_eq_none_iff (m : OrderedMap κ α) {k : κ} : m.get? k = none ↔ k ∉ m.keys := by
  rw [← contains_iff_mem_keys, contains, Bool.not_eq_true, Option.isSome_eq_false_iff,
    Option.isNone_iff_eq_none]

/-- A filtered map is looked up by filtering what is found. -/
theorem get?_filter (m : OrderedMap κ α) (p : κ → α → Bool) (k : κ) :
    (m.filter p).get? k = (m.get? k).filter (p k) := by
  refine Option.ext fun v => ?_
  rw [Option.filter_eq_some_iff, get?_eq_some_iff, get?_eq_some_iff, mem_entries_filter]

/-- A key that was removed is not there. -/
theorem get?_erase_self (m : OrderedMap κ α) (k : κ) : (m.erase k).get? k = none := by
  rw [erase, get?_filter]
  cases m.get? k with
  | none => rfl
  | some v => simp

/-- Removing one key leaves the others alone. -/
theorem get?_erase_of_ne (m : OrderedMap κ α) {j k : κ} (h : j ≠ k) :
    (m.erase k).get? j = m.get? j := by
  rw [erase, get?_filter]
  cases m.get? j with
  | none => rfl
  | some v => simp [h]

end GraphPath.OrderedMap
