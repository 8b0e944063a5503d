import GraphPath.Cache

/-! # Caches, entry by entry

What the operations of a `Cache` do to the entries it holds.  A look-up adds no
entry and loses none, and storing adds the one stored (`mem_entries_of_get?`,
`mem_entries_of_insert`); no operation lets the entries outgrow the capacity
(`size_get?_le`, and `size_insert_le`, `size_resize_le` beside the definitions).
-/

namespace GraphPath.Cache
variable {α : Type} {cache : Cache α} {key : String} {v : α} {entry : String × α}

theorem capacity_get? : (cache.get? key).2.capacity = cache.capacity := by
  unfold get?
  split <;> rfl

/-- A value that is found is an entry. -/
theorem mem_of_lookup_eq_some {entries : List (String × α)} (h : entries.lookup key = some v) :
    (key, v) ∈ entries := by
  obtain ⟨front, back, rfl, -⟩ := List.lookup_eq_some_iff.mp h
  exact List.mem_append_right front List.mem_cons_self

theorem mem_entries_of_get? (h : entry ∈ (cache.get? key).2.entries) : entry ∈ cache.entries := by
  unfold get? at h
  split at h
  · rename_i w hlookup
    rcases List.mem_cons.mp h with rfl | h
    · exact mem_of_lookup_eq_some hlookup
    · exact (List.mem_filter.mp h).1
  · exact h

theorem mem_entries_of_insert (h : entry ∈ (cache.insert key v).entries) :
    entry = (key, v) ∨ entry ∈ cache.entries := by
  rcases List.mem_cons.mp (List.mem_of_mem_take h) with rfl | h
  · exact Or.inl rfl
  · exact Or.inr (List.mem_filter.mp h).1

/-- **A look-up does not make a cache grow**: a hit takes the entry out before it is put first. -/
theorem size_get?_le (cache : Cache α) (key : String) : (cache.get? key).2.size ≤ cache.size := by
  unfold get?
  split
  · rename_i w hlookup
    have hshorter : (cache.without key).length < cache.entries.length :=
      List.length_filter_lt_length_iff_exists.mpr
        ⟨(key, w), mem_of_lookup_eq_some hlookup, by simp⟩
    simp only [size, List.length_cons]
    omega
  · exact Nat.le_refl _

/-- A capacity that is large enough costs no entry. -/
theorem entries_resize_of_size_le {capacity : Nat} (h : cache.size ≤ max 1 capacity) :
    (cache.resize capacity).entries = cache.entries := List.take_of_length_le h

end GraphPath.Cache
