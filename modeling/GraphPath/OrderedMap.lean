/-!
# Maps that remember the order of insertion

An `OrderedMap` is a list of key–value pairs in which no key occurs twice.  A
new key goes last; giving a value to a key that is already there keeps its place;
erasing a key moves nothing else.  The maps of a document and the tables of a
grammar are both of this kind, because both orders can be seen in answers.

The view is `get?` for lookups and `keys` for the order; `insert`, `erase` and
`filter` are described by what they do to these two.
-/

namespace GraphPath

/-- Key–value pairs in order of insertion, no key twice. -/
structure OrderedMap (κ α : Type) where
  /-- The pairs, oldest key first. -/
  entries : List (κ × α)
  /-- No key occurs twice. -/
  nodup : (entries.map Prod.fst).Nodup

namespace OrderedMap
variable {κ α : Type}

/-- The map with no keys. -/
def empty : OrderedMap κ α := ⟨[], by simp⟩

instance : Inhabited (OrderedMap κ α) := ⟨empty⟩

/-- The keys, in order of insertion. -/
def keys (m : OrderedMap κ α) : List κ := m.entries.map Prod.fst

/-- The values, in the order of their keys. -/
def values (m : OrderedMap κ α) : List α := m.entries.map Prod.snd

/-- The number of keys. -/
def size (m : OrderedMap κ α) : Nat := m.entries.length

/-- Keep the pairs that satisfy `p`. -/
def filter (m : OrderedMap κ α) (p : κ → α → Bool) : OrderedMap κ α :=
  ⟨m.entries.filter fun e => p e.1 e.2,
    m.nodup.sublist (List.filter_sublist.map Prod.fst)⟩

@[simp] theorem entries_empty : (empty : OrderedMap κ α).entries = [] := rfl

theorem keys_nodup (m : OrderedMap κ α) : m.keys.Nodup := m.nodup

theorem keys_filter_sublist (m : OrderedMap κ α) (p : κ → α → Bool) :
    (m.filter p).keys.Sublist m.keys := List.filter_sublist.map Prod.fst

/-! ## Lookup and change by key -/

variable [DecidableEq κ]

/-- The value of a key. -/
def get? (m : OrderedMap κ α) (k : κ) : Option α := m.entries.lookup k

/-- Whether a key has a value. -/
def contains (m : OrderedMap κ α) (k : κ) : Bool := (m.get? k).isSome

/-- Give `v` to `k` in a list of pairs: in place if `k` is there, at the end if not. -/
def put (k : κ) (v : α) : List (κ × α) → List (κ × α)
  | [] => [(k, v)]
  | (k', v') :: rest => if k = k' then (k, v) :: rest else (k', v') :: put k v rest

theorem mem_keys_put {k j : κ} {v : α} {l : List (κ × α)} :
    j ∈ (put k v l).map Prod.fst ↔ j = k ∨ j ∈ l.map Prod.fst := by
  induction l with
  | nil => simp [put]
  | cons e rest ih =>
    obtain ⟨k', v'⟩ := e
    by_cases h : k = k'
    · subst h; simp [put]
    · simp only [put, h, if_false, List.map_cons, List.mem_cons, ih]
      grind

theorem nodup_put {k : κ} {v : α} {l : List (κ × α)} (h : (l.map Prod.fst).Nodup) :
    ((put k v l).map Prod.fst).Nodup := by
  induction l with
  | nil => simp [put]
  | cons e rest ih =>
    obtain ⟨k', v'⟩ := e
    rw [List.map_cons, List.nodup_cons] at h
    by_cases hk : k = k'
    · subst hk; simpa [put] using h
    · simp only [put, hk, if_false, List.map_cons, List.nodup_cons, mem_keys_put]
      exact ⟨by grind, ih h.2⟩

/-- Give `k` the value `v`: an old key keeps its place, a new one goes last. -/
def insert (m : OrderedMap κ α) (k : κ) (v : α) : OrderedMap κ α :=
  ⟨put k v m.entries, nodup_put m.nodup⟩

/-- Remove a key; the others keep their order. -/
def erase (m : OrderedMap κ α) (k : κ) : OrderedMap κ α := m.filter fun j _ => j ≠ k

/-- The map with the given pairs, of which a later one overrides an earlier one in place. -/
def ofList (l : List (κ × α)) : OrderedMap κ α :=
  l.foldl (fun m e => m.insert e.1 e.2) empty

/-! ## What the operations do to the view -/

@[simp] theorem get?_empty (k : κ) : (empty : OrderedMap κ α).get? k = none := rfl

theorem lookup_put_self (k : κ) (v : α) (l : List (κ × α)) : (put k v l).lookup k = some v := by
  induction l with
  | nil => simp [put]
  | cons e rest ih =>
    obtain ⟨k', v'⟩ := e
    by_cases h : k = k'
    · simp [put, h]
    · have hb : (k == k') = false := by simpa using h
      simp [put, h, List.lookup_cons, hb, ih]

theorem lookup_put_of_ne {j k : κ} (h : j ≠ k) (v : α) (l : List (κ × α)) :
    (put k v l).lookup j = l.lookup j := by
  have hjk : (j == k) = false := by simpa using h
  induction l with
  | nil => simp [put, List.lookup_cons, hjk]
  | cons e rest ih =>
    obtain ⟨k', v'⟩ := e
    by_cases hk : k = k'
    · subst hk; simp [put, List.lookup_cons, hjk]
    · simp [put, hk, List.lookup_cons, ih]

/-- **A key has the value it was last given.** -/
@[simp] theorem get?_insert_self (m : OrderedMap κ α) (k : κ) (v : α) :
    (m.insert k v).get? k = some v := lookup_put_self k v m.entries

/-- Giving a value to one key leaves the others alone. -/
theorem get?_insert_of_ne (m : OrderedMap κ α) {j k : κ} (h : j ≠ k) (v : α) :
    (m.insert k v).get? j = m.get? j := lookup_put_of_ne h v m.entries

/-- Exactly the keys have a value. -/
theorem contains_iff_mem_keys (m : OrderedMap κ α) (k : κ) : m.contains k ↔ k ∈ m.keys := by
  unfold contains get? keys
  induction m.entries with
  | nil => simp
  | cons e rest ih =>
    obtain ⟨k', v'⟩ := e
    by_cases h : k = k'
    · simp [h]
    · have hb : (k == k') = false := by simpa using h
      simp [List.lookup_cons, hb, h, ih]

theorem keys_put_of_mem {k : κ} {v : α} {l : List (κ × α)} (h : k ∈ l.map Prod.fst) :
    (put k v l).map Prod.fst = l.map Prod.fst := by
  induction l with
  | nil => simp at h
  | cons e rest ih =>
    obtain ⟨k', v'⟩ := e
    by_cases hk : k = k'
    · simp [put, hk]
    · simp only [put, hk, if_false, List.map_cons, List.cons.injEq, true_and]
      exact ih (by simpa [hk] using h)

theorem put_of_not_mem {k : κ} {v : α} {l : List (κ × α)} (h : k ∉ l.map Prod.fst) :
    put k v l = l ++ [(k, v)] := by
  induction l with
  | nil => rfl
  | cons e rest ih =>
    obtain ⟨k', v'⟩ := e
    simp only [List.map_cons, List.mem_cons, not_or] at h
    simp [put, h.1, ih h.2]

/-- **An old key keeps its place.** -/
theorem keys_insert_of_mem (m : OrderedMap κ α) {k : κ} (h : k ∈ m.keys) (v : α) :
    (m.insert k v).keys = m.keys := keys_put_of_mem h

/-- **A new key goes last.** -/
theorem keys_insert_of_not_mem (m : OrderedMap κ α) {k : κ} (h : k ∉ m.keys) (v : α) :
    (m.insert k v).keys = m.keys ++ [k] := by
  have := put_of_not_mem (v := v) h
  simp [keys, insert, this]

example : ((ofList [('a', 1), ('b', 2), ('a', 3)]).entries) = [('a', 3), ('b', 2)] := by decide

end OrderedMap

end GraphPath
