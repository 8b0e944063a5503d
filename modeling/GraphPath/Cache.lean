/-!
# A bounded cache

A `Cache` remembers values under text keys, at most `capacity` of them.  Its entries
stand in order of last use, most recent first.  A hit moves an entry to the front, and
so does storing it again; when there are too many, those at the end go.

A capacity of zero counts as one.
-/

namespace GraphPath

/-- Entries in order of last use, at most `capacity` of them. -/
structure Cache (α : Type) where
  /-- The most entries that are kept. -/
  capacity : Nat
  /-- The entries, most recently used first. -/
  entries : List (String × α)

namespace Cache
variable {α : Type}

/-- An empty cache. -/
def ofCapacity (capacity : Nat) : Cache α := ⟨max 1 capacity, []⟩

/-- The number of entries. -/
def size (cache : Cache α) : Nat := cache.entries.length

/-- Whether there are no entries. -/
def isEmpty (cache : Cache α) : Bool := cache.entries.isEmpty

/-- The entries other than the one under a key. -/
def without (cache : Cache α) (key : String) : List (String × α) :=
  cache.entries.filter fun entry => entry.1 ≠ key

/-- **Look a key up.**  A hit becomes the most recent entry. -/
def get? (cache : Cache α) (key : String) : Option α × Cache α :=
  match cache.entries.lookup key with
  | some v => (some v, { cache with entries := (key, v) :: cache.without key })
  | none => (none, cache)

/-- **Store a value.**  It becomes the most recent entry; if the cache is too full then, the
least recently used one goes. -/
def insert (cache : Cache α) (key : String) (v : α) : Cache α :=
  { cache with entries := ((key, v) :: cache.without key).take cache.capacity }

/-- Change the capacity; entries that no longer fit go, the least recently used first. -/
def resize (cache : Cache α) (capacity : Nat) : Cache α :=
  ⟨max 1 capacity, cache.entries.take (max 1 capacity)⟩

/-- Remove all entries. -/
def clear (cache : Cache α) : Cache α := { cache with entries := [] }

/-- A value just stored is found. -/
theorem get?_insert_self (cache : Cache α) (h : 0 < cache.capacity) (key : String) (v : α) :
    ((cache.insert key v).get? key).1 = some v := by
  obtain ⟨n, hn⟩ := Nat.exists_eq_succ_of_ne_zero (Nat.ne_of_gt h)
  simp [insert, get?, hn]

/-- **A cache never holds more than its capacity** after a value is stored. -/
theorem size_insert_le (cache : Cache α) (key : String) (v : α) :
    (cache.insert key v).size ≤ (cache.insert key v).capacity := by
  simp only [size, insert, List.length_take]
  omega

theorem size_resize_le (cache : Cache α) (capacity : Nat) :
    (cache.resize capacity).size ≤ (cache.resize capacity).capacity := by
  simp only [size, resize, List.length_take]
  omega

end Cache

end GraphPath
