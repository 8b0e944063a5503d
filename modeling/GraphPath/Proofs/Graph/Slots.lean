import GraphPath.Proofs.Graph.Preserved

/-! # Slots

Giving a value to a key of a container fills one slot of it and leaves the other
entries as they are, in their order (`Cell.Fills`).  A graph in
which this has happened to one container is otherwise the same, except that it may
have new containers (`Graph.ChangesOnly`).

Values are read along rows of keys (`Graph.valueAt?`).  Such a reading depends only
on the containers that it passes (`Graph.visited`), so a change of one container is
seen by those that pass it and by no others (`valueAt?_of_visited`).
-/

namespace GraphPath

/-! ## One container -/

namespace Cell
variable {cell cell' : Cell} {key : String} {v : Value}

/-- **A key that is there has been given another value**, and nothing else has changed. -/
inductive Replaces (key : String) (v : Value) : Cell → Cell → Prop
  | item {front back : List Value} {old : Value} (hkey : listIndex? key = some front.length) :
      Replaces key v (.list (front ++ old :: back)) (.list (front ++ v :: back))
  | field {fields fields' : OrderedMap String Value} {front back : List (String × Value)}
      {old : Value} (hold : fields.entries = front ++ (key, old) :: back)
      (hnew : fields'.entries = front ++ (key, v) :: back) :
      Replaces key v (.map fields) (.map fields')

/-- **A new key has been given a value**, behind all that was there before. -/
inductive Appends (key : String) (v : Value) : Cell → Cell → Prop
  | item {items : List Value} (hkey : listIndex? key = some items.length) :
      Appends key v (.list items) (.list (items ++ [v]))
  | field {fields fields' : OrderedMap String Value} (hkey : key ∉ fields.keys)
      (hnew : fields'.entries = fields.entries ++ [(key, v)]) :
      Appends key v (.map fields) (.map fields')

/-- **A slot has been filled.** -/
def Fills (key : String) (v : Value) (cell cell' : Cell) : Prop :=
  Replaces key v cell cell' ∨ Appends key v cell cell'

theorem Replaces.get? (h : Replaces key v cell cell') : cell'.get? key = some v := by
  cases h with
  | item hkey => simp [Cell.get?, hkey]
  | @field fields fields' front back old hold hnew =>
    have hentry : (key, v) ∈ fields'.entries := by simp [hnew]
    exact fields'.get?_eq_some_iff.mpr hentry

theorem Appends.get? (h : Appends key v cell cell') : cell'.get? key = some v := by
  cases h with
  | item hkey => simp [Cell.get?, hkey]
  | @field fields fields' hkey hnew =>
    have hentry : (key, v) ∈ fields'.entries := by simp [hnew]
    exact fields'.get?_eq_some_iff.mpr hentry

/-- Giving a value to a key that is there. -/
theorem replaces_of_set {old : Value} (hold : cell.get? key = some old)
    (h : cell.set key v = .ok cell') : Replaces key v cell cell' := by
  cases cell with
  | list items =>
    cases hkey : listIndex? key with
    | none =>
      rw [Cell.get?, hkey] at hold
      cases hold
    | some i =>
      rw [Cell.get?, hkey] at hold
      obtain ⟨hi, hitem⟩ := List.getElem?_eq_some_iff.mp hold
      rw [set, hkey] at h
      dsimp only at h
      rw [if_pos hi] at h
      cases h
      have hitems : items = items.take i ++ old :: items.drop (i + 1) := by
        rw [← hitem, ← List.drop_eq_getElem_cons hi, List.take_append_drop]
      have hset : items.set i v = items.take i ++ v :: items.drop (i + 1) := by
        rw [List.set_eq_take_append_cons_drop, if_pos hi]
      have hlength : (items.take i).length = i := List.length_take_of_le (Nat.le_of_lt hi)
      have hslot : Replaces key v (.list (items.take i ++ old :: items.drop (i + 1)))
          (.list (items.take i ++ v :: items.drop (i + 1))) :=
        .item (hkey.trans (congrArg some hlength.symm))
      rwa [← hitems, ← hset] at hslot
  | map fields =>
    cases h
    obtain ⟨front, back, hfields, hput⟩ := OrderedMap.put_of_lookup (v := v) hold
    exact .field hfields hput

/-- A key that is there can be given another value. -/
theorem exists_replaces {old : Value} (hold : cell.get? key = some old) (v : Value) :
    ∃ cell', cell.set key v = .ok cell' ∧ Replaces key v cell cell' := by
  obtain ⟨cell', hset⟩ : ∃ cell', cell.set key v = .ok cell' := by
    cases cell with
    | list items =>
      cases hkey : listIndex? key with
      | none =>
        rw [get?, hkey] at hold
        cases hold
      | some i =>
        rw [get?, hkey] at hold
        rw [set, hkey]
        exact ⟨_, if_pos (List.getElem?_eq_some_iff.mp hold).1⟩
    | map fields => exact ⟨_, rfl⟩
  exact ⟨cell', hset, replaces_of_set hold hset⟩

/-- Giving a value to a key that is not there. -/
theorem appends_of_set (habsent : cell.get? key = none) (h : cell.set key v = .ok cell') :
    Appends key v cell cell' := by
  cases cell with
  | list items =>
    cases hkey : listIndex? key with
    | none =>
      rw [set, hkey] at h
      cases h
    | some i =>
      rw [Cell.get?, hkey] at habsent
      have hi : ¬ i < items.length := Nat.not_lt.mpr (List.getElem?_eq_none_iff.mp habsent)
      rw [set, hkey] at h
      dsimp only at h
      rw [if_neg hi] at h
      by_cases hend : i = items.length
      · rw [if_pos hend] at h
        cases h
        exact .item (hkey.trans (congrArg some hend))
      · rw [if_neg hend] at h
        cases h
  | map fields =>
    cases h
    have hkey : key ∉ fields.keys := fields.get?_eq_none_iff.mp habsent
    exact .field hkey (OrderedMap.put_of_not_mem hkey)

theorem fills_of_set (h : cell.set key v = .ok cell') : Fills key v cell cell' := by
  cases hold : cell.get? key with
  | some old => exact Or.inl (replaces_of_set hold h)
  | none => exact Or.inr (appends_of_set hold h)

theorem Fills.get? (h : Fills key v cell cell') : cell'.get? key = some v :=
  h.elim Replaces.get? Appends.get?

/-- **What was given to a key is there afterwards.** -/
theorem get?_of_set (h : cell.set key v = .ok cell') : cell'.get? key = some v :=
  (fills_of_set h).get?

end Cell

namespace Graph
variable {g g' : Graph} {h : Handle} {v w : Value} {key : String} {keys rest : List String}

/-! ## All containers -/

/-- **One container of `g` has changed**, in the given way.  There may be new containers. -/
structure ChangesOnly (g : Graph) (h : Handle) (change : Cell → Cell → Prop) (g' : Graph) :
    Prop where
  /-- The container is one of `g`. -/
  lt_size : h < g.cells.size
  /-- No container is lost. -/
  size_le : g.cells.size ≤ g'.cells.size
  /-- The container has changed. -/
  changed : change (g.read h) (g'.read h)
  /-- The others have not. -/
  frame : ∀ k, k < g.cells.size → k ≠ h → g'.read k = g.read k

section
variable {g₁ g₂ : Graph} {change : Cell → Cell → Prop} {cell : Cell}

theorem changesOnly_write (hlt : h < g.cells.size) (hchange : change (g.read h) cell) :
    g.ChangesOnly h change (g.write h cell) where
  lt_size := hlt
  size_le := Nat.le_of_eq (g.size_write h cell).symm
  changed := (g.read_write_self hlt cell).symm ▸ hchange
  frame _ _ hne := g.read_write_of_ne hne cell

/-- What is only added later is no change. -/
theorem ChangesOnly.preserved (h₁ : g.ChangesOnly h change g₁) (h₂ : g₁.PreservedIn g₂) :
    g.ChangesOnly h change g₂ where
  lt_size := h₁.lt_size
  size_le := Nat.le_trans h₁.size_le h₂.size_le
  changed := (h₂.read_eq h (Nat.lt_of_lt_of_le h₁.lt_size h₁.size_le)).symm ▸ h₁.changed
  frame k hk hne := (h₂.read_eq k (Nat.lt_of_lt_of_le hk h₁.size_le)).trans (h₁.frame k hk hne)

end

/-- A value other than the changed container is looked into as before. -/
theorem ChangesOnly.getKey?_of_ne {change : Cell → Cell → Prop} (hg : g.ChangesOnly h change g')
    (hw : g.Holds w) (hne : w ≠ .container h) (key : String) :
    g'.getKey? w key = g.getKey? w key := by
  cases w with
  | container k =>
    have hk : k ≠ h := fun hk => hne (congrArg Value.container hk)
    exact congrArg (·.get? key) (hg.frame k hw hk)
  | _ => rfl

/-! ## Reading along keys -/

/-- The value at the end of a row of keys. -/
def valueAt? (g : Graph) (v : Value) : List String → Option Value
  | [] => some v
  | key :: rest => (g.getKey? v key).bind fun next => g.valueAt? next rest

/-- The values whose keys are asked for on the way along a row of keys. -/
def visited (g : Graph) (v : Value) : List String → List Value
  | [] => []
  | key :: rest =>
    v :: match g.getKey? v key with
      | some next => g.visited next rest
      | none => []

@[simp] theorem valueAt?_nil : g.valueAt? v [] = some v := rfl

theorem valueAt?_cons (hkey : g.getKey? v key = some w) (rest : List String) :
    g.valueAt? v (key :: rest) = g.valueAt? w rest := by rw [valueAt?, hkey, Option.bind_some]

theorem valueAt?_cons_of_none (hkey : g.getKey? v key = none) (rest : List String) :
    g.valueAt? v (key :: rest) = none := by rw [valueAt?, hkey, Option.bind_none]

theorem valueAt?_append (v : Value) (keys rest : List String) :
    g.valueAt? v (keys ++ rest) = (g.valueAt? v keys).bind fun w => g.valueAt? w rest := by
  induction keys generalizing v with
  | nil => rfl
  | cons key keys ih =>
    rw [List.cons_append]
    cases hkey : g.getKey? v key with
    | none => rw [valueAt?_cons_of_none hkey, valueAt?_cons_of_none hkey, Option.bind_none]
    | some next => rw [valueAt?_cons hkey, valueAt?_cons hkey, ih]

theorem visited_append (hkeys : g.valueAt? v keys = some w) (rest : List String) :
    g.visited v (keys ++ rest) = g.visited v keys ++ g.visited w rest := by
  induction keys generalizing v with
  | nil =>
    cases hkeys
    rfl
  | cons key keys ih =>
    rw [List.cons_append, visited, visited]
    cases hkey : g.getKey? v key with
    | none =>
      rw [valueAt?_cons_of_none hkey] at hkeys
      cases hkeys
    | some next =>
      rw [valueAt?_cons hkey] at hkeys
      exact congrArg (v :: ·) (ih hkeys)

/-- In a closed graph no reading leaves it. -/
theorem Closed.holds_of_mem_visited (hg : g.Closed) (hv : g.Holds v)
    (hw : w ∈ g.visited v keys) : g.Holds w := by
  induction keys generalizing v with
  | nil => cases hw
  | cons key keys ih =>
    rw [visited] at hw
    rcases List.mem_cons.mp hw with rfl | hw
    · exact hv
    · cases hkey : g.getKey? v key with
      | none =>
        rw [hkey] at hw
        cases hw
      | some next =>
        rw [hkey] at hw
        exact ih (hg.holds_of_getKey? hkey) hw

/-- **A reading depends only on the values that it visits.** -/
theorem valueAt?_of_visited
    (hframe : ∀ w ∈ g.visited v keys, ∀ key, g'.getKey? w key = g.getKey? w key) :
    g'.valueAt? v keys = g.valueAt? v keys := by
  induction keys generalizing v with
  | nil => rfl
  | cons key keys ih =>
    rw [visited] at hframe
    have hhere : g'.getKey? v key = g.getKey? v key := hframe v List.mem_cons_self key
    cases hkey : g.getKey? v key with
    | none => rw [valueAt?_cons_of_none hkey, valueAt?_cons_of_none (hhere.trans hkey)]
    | some next =>
      rw [hkey] at hframe
      rw [valueAt?_cons hkey, valueAt?_cons (hhere.trans hkey)]
      exact ih fun w hw => hframe w (List.mem_cons_of_mem v hw)

/-! ## Chains -/

/-- **A chain of maps** from one value to another, each map with a single key and with a handle
not below the bound, and no map twice. -/
inductive Chain (g : Graph) : Nat → Value → List String → Value → Prop
  | done (bound : Nat) (v : Value) : Chain g bound v [] v
  | link {bound : Nat} {h : Handle} {fields : OrderedMap String Value} {key : String}
      {next v : Value} {rest : List String} (hbound : bound ≤ h) (hsize : h < g.cells.size)
      (hread : g.read h = .map fields) (hfields : fields.entries = [(key, next)])
      (hrest : Chain g (h + 1) next rest v) : Chain g bound (.container h) (key :: rest) v

/-- The keys of a chain lead to its end. -/
theorem Chain.valueAt? {bound : Nat} (hchain : g.Chain bound w keys v) :
    g.valueAt? w keys = some v := by
  induction hchain with
  | done bound v => rfl
  | @link bound h fields key next v rest hbound hsize hread hfields hrest ih =>
    have hkey : g.getKey? (.container h) key = some next := by
      rw [getKey?, hread]
      exact fields.get?_eq_some_iff.mpr (hfields ▸ List.mem_singleton_self _)
    rw [valueAt?_cons hkey, ih]

end Graph

end GraphPath
