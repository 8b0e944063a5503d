import GraphPath.Proofs.Graph.Slots
import GraphPath.Proofs.Resolve.Words

/-! # Steps by a literal key

What a step by a literal key has done when it has succeeded.  A writing step has
filled a slot of a container (`writeKey_eq_ok`).  A step on the way to a write has
found the key, or put a new map where it was missing, or has come to a value into
which nothing can be written (`byKey_cases`).
-/

namespace GraphPath

/-- An assignment succeeds if the key can be set. -/
theorem Edit.assign_eq_ok_iff_setKey {g g' : Graph} {target v : Value} {key : String} :
    Edit.assign target key v g = .ok () g' ↔ g.setKey target key v = .ok g' := by
  unfold Edit.assign Edit.attempt
  dsimp only
  cases g.setKey target key v with
  | ok graph =>
    constructor <;>
    · intro h
      cases h
      rfl
  | error failure => exact ⟨nofun, nofun⟩

theorem Edit.assign_eq_ok_iff {g g' : Graph} {target v : Value} {key : String} :
    Edit.assign target key v g = .ok () g' ↔ ∃ h cell, target = .container h ∧
      (g.read h).set key v = .ok cell ∧ g' = g.write h cell := by
  rw [Edit.assign_eq_ok_iff_setKey]
  unfold Graph.setKey
  constructor
  · intro h
    cases target with
    | container handle =>
      dsimp only at h
      cases hset : (g.read handle).set key v with
      | error failure =>
        rw [hset] at h
        cases h
      | ok cell =>
        rw [hset] at h
        cases h
        exact ⟨handle, cell, rfl, hset, rfl⟩
    | _ => cases h
  · rintro ⟨handle, cell, rfl, hset, rfl⟩
    dsimp only
    rw [hset]

namespace Step
variable {g g' : Graph} {target v w : Value} {key : String} {h : Handle} {cell : Cell}

/-- Writing at a key of a container fills the slot. -/
theorem writeKey_of_set (hlt : h < g.cells.size) (hset : (g.read h).set key v = .ok cell) :
    writeKey (.container h) key v g = .ok v (g.write h cell) := by
  have hassign : Edit.assign (.container h) key v g = .ok () (g.write h cell) :=
    Edit.assign_eq_ok_iff.mpr ⟨h, cell, rfl, hset, rfl⟩
  have hhas : (g.write h cell).hasKey (.container h) key = true := by
    rw [Graph.hasKey, Graph.read_write_self g hlt, Cell.has_eq_isSome_get?, Cell.get?_of_set hset]
    rfl
  rw [writeKey, bind_of_ok hassign, bind_of_ok (Edit.ask_eq_ok_iff.mpr ⟨hhas, rfl⟩)]
  rfl

/-- **A write succeeds only on a container, and fills a slot of it.** -/
theorem writeKey_eq_ok (hwrite : writeKey target key v g = .ok w g') :
    w = v ∧ ∃ h cell, target = .container h ∧ h < g.cells.size ∧
      (g.read h).set key v = .ok cell ∧ g' = g.write h cell := by
  obtain ⟨⟨⟩, g₁, hassign, hrest⟩ := exists_of_bind_ok hwrite
  obtain ⟨has, g₂, hask, hrest⟩ := exists_of_bind_ok hrest
  obtain ⟨hhas, rfl⟩ := Edit.ask_eq_ok_iff.mp hask
  cases has with
  | false => cases hrest
  | true =>
    cases hrest
    obtain ⟨h, cell, rfl, hset, rfl⟩ := Edit.assign_eq_ok_iff.mp hassign
    refine ⟨rfl, h, cell, rfl, Nat.lt_of_not_le fun hle => ?_, hset, rfl⟩
    -- a handle of no container has no key after the write either
    have hread : (g.write h cell).read h = .list [] :=
      Graph.read_of_size_le (g.size_write h cell ▸ hle)
    rw [Graph.hasKey, hread, Cell.has] at hhas
    split at hhas
    · simp at hhas
    · cases hhas

/-- A new map can be put wherever a value can. -/
theorem vivifyKey_eq_ok_iff (hlt : h < g.cells.size) :
    vivifyKey (.container h) key g = .ok w g' ↔ w = .container g.cells.size ∧
      ∃ cell, (g.read h).set key w = .ok cell ∧ g' = (g.alloc (.map .empty)).2.write h cell := by
  have hmake : Edit.make (fun g => g.newMap .empty) g =
      .ok (.container g.cells.size) (g.alloc (.map .empty)).2 := rfl
  have hread := g.read_alloc_of_lt hlt (.map .empty)
  rw [vivifyKey, bind_of_ok hmake]
  constructor
  · intro hok
    obtain ⟨⟨⟩, g₁, hassign, hrest⟩ := exists_of_bind_ok hok
    cases hrest
    obtain ⟨k, cell, hk, hset, rfl⟩ := Edit.assign_eq_ok_iff.mp hassign
    cases hk
    exact ⟨rfl, cell, hread ▸ hset, rfl⟩
  · rintro ⟨rfl, cell, hset, rfl⟩
    exact bind_of_ok (Edit.assign_eq_ok_iff.mpr ⟨h, cell, rfl, hread.symm ▸ hset, rfl⟩)

/-- **Putting a new map under a key** fills the slot with it and changes nothing else. -/
theorem vivifyKey_eq_ok (hlt : h < g.cells.size)
    (hok : vivifyKey (.container h) key g = .ok w g') :
    w = .container g.cells.size ∧ g'.cells.size = g.cells.size + 1 ∧
      g'.read g.cells.size = .map .empty ∧ (g.read h).set key w = .ok (g'.read h) ∧
      ∀ k, k < g.cells.size → k ≠ h → g'.read k = g.read k := by
  obtain ⟨rfl, cell, hset, rfl⟩ := (vivifyKey_eq_ok_iff hlt).mp hok
  have hsize := g.size_alloc (.map .empty)
  refine ⟨rfl, (Graph.size_write _ _ _).trans hsize, ?_, ?_, fun k hk hne => ?_⟩
  · rw [Graph.read_write_of_ne _ (Nat.ne_of_gt hlt)]
    exact g.read_alloc_self _
  · rw [Graph.read_write_self _ (hsize ▸ Nat.lt_succ_of_lt hlt)]
    exact hset
  · rw [Graph.read_write_of_ne _ hne]
    exact g.read_alloc_of_lt hk _

/-! ## Closed graphs stay closed -/

theorem closed_of_set (hg : g.Closed) (hv : g.Holds v) (hset : (g.read h).set key v = .ok cell) :
    ∀ w ∈ cell.values, g.Holds w := fun w hw => by
  rcases Cell.mem_values_of_set hset hw with rfl | hw
  · exact hv
  · exact hg h w hw

theorem closed_of_writeKey (hg : g.Closed) (hv : g.Holds v)
    (hok : writeKey target key v g = .ok w g') : g'.Closed := by
  obtain ⟨-, h, cell, -, -, hset, rfl⟩ := writeKey_eq_ok hok
  exact hg.write (closed_of_set hg hv hset) h

theorem closed_of_vivifyKey (hg : g.Closed) (hlt : h < g.cells.size)
    (hok : vivifyKey (.container h) key g = .ok w g') : g'.Closed ∧ g'.Holds w := by
  obtain ⟨rfl, cell, hset, rfl⟩ := (vivifyKey_eq_ok_iff hlt).mp hok
  have hsize := g.size_alloc (.map .empty)
  have hgrown : (g.alloc (.map .empty)).2.Closed := hg.alloc nofun
  have hfresh : (g.alloc (.map .empty)).2.Holds (.container g.cells.size) := by
    show _ < _
    rw [hsize]
    exact Nat.lt_succ_self _
  rw [← g.read_alloc_of_lt hlt (.map .empty)] at hset
  exact ⟨hgrown.write (closed_of_set hgrown hfresh hset) h,
    hfresh.mono (Nat.le_of_eq (Graph.size_write _ h cell).symm)⟩

/-! ## Steps on the way to a write -/

/-- Reading a key that is missing. -/
theorem missing_eq (g : Graph) (target : Value) (key : String) :
    missing target key g = match g.intrinsic? target key with
      | some (v, g') => .ok v g'
      | none =>
        if target.isCallable then .ok (.string key) g
        else .error (.noKey key (g.kind target)) g := by
  have hask : Edit.ask (fun g => g.intrinsic? target key) g = .ok (g.intrinsic? target key) g := rfl
  unfold missing
  rw [bind_of_ok hask]
  cases g.intrinsic? target key with
  | some found => rfl
  | none =>
    dsimp only
    split <;> rfl

/-- **What stands for a missing key is no container**, an intrinsic or the key itself, and finding
it out changes none. -/
theorem missing_eq_ok (hmissing : missing target key g = .ok w g') :
    w.isContainer = false ∧ g'.cells = g.cells := by
  rw [missing_eq] at hmissing
  cases hintrinsic : g.intrinsic? target key with
  | some found =>
    rw [hintrinsic] at hmissing
    cases hmissing
    unfold Graph.intrinsic? at hintrinsic
    split at hintrinsic
    · obtain ⟨n, -, hn⟩ := Option.map_eq_some_iff.mp hintrinsic
      cases hn
      exact ⟨rfl, rfl⟩
    · split at hintrinsic
      · split at hintrinsic <;> cases hintrinsic
        exact ⟨rfl, rfl⟩
      · cases hintrinsic
  | none =>
    rw [hintrinsic] at hmissing
    dsimp only at hmissing
    split at hmissing
    · cases hmissing
      exact ⟨rfl, rfl⟩
    · cases hmissing

/-- A missing key of a list or map that stands for no intrinsic cannot be read. -/
theorem missing_of_intrinsic?_eq_none (hcontainer : target.isContainer = true)
    (hintrinsic : g.intrinsic? target key = none) :
    missing target key g = .error (.noKey key (g.kind target)) g := by
  rw [missing_eq, hintrinsic]
  cases target with
  | container h => rfl
  | _ => cases hcontainer

/-- A key that is not there is made, or read as a missing one. -/
theorem byKey_of_getKey?_eq_none (hkey : g.getKey? target key = none) (vivify : Bool) :
    byKey target key none vivify g =
      (if vivify && target.isContainer then vivifyKey target key else missing target key) g := by
  have hask : Edit.ask (fun g => g.getKey? target key) g = .ok none g :=
    Edit.ask_eq_ok_iff.mpr ⟨hkey, rfl⟩
  exact bind_of_ok hask

/-- Reading by a literal key. -/
theorem byKey_none (g : Graph) (target : Value) (key : String) :
    byKey target key none false g = match g.getKey? target key with
      | some found => .ok found g
      | none => missing target key g := by
  cases hfound : g.getKey? target key with
  | some found => exact byKey_of_getKey? hfound false
  | none => exact byKey_of_getKey?_eq_none hfound false

/-- **A step on the way to a write** takes a key that is there, or puts a map where a key of a
container is missing, or reaches something into which nothing can be written. -/
theorem byKey_cases {vivify : Bool} (hstep : byKey target key none vivify g = .ok w g') :
    (g.getKey? target key = some w ∧ g' = g) ∨
      (g.getKey? target key = none ∧ vivify = true ∧ target.isContainer = true ∧
        vivifyKey target key g = .ok w g') ∨
      (g.getKey? target key = none ∧ (vivify && target.isContainer) = false ∧
        w.isContainer = false ∧ g'.cells = g.cells) := by
  cases hkey : g.getKey? target key with
  | some found =>
    rw [byKey_of_getKey? hkey] at hstep
    cases hstep
    exact Or.inl ⟨rfl, rfl⟩
  | none =>
    rw [byKey_of_getKey?_eq_none hkey] at hstep
    cases hviv : vivify && target.isContainer with
    | true =>
      rw [hviv] at hstep
      obtain ⟨hvivify, hcontainer⟩ := Bool.and_eq_true_iff.mp hviv
      exact Or.inr (Or.inl ⟨rfl, hvivify, hcontainer, hstep⟩)
    | false =>
      rw [hviv] at hstep
      exact Or.inr (Or.inr ⟨rfl, rfl, missing_eq_ok hstep⟩)

theorem byKey_of_none (hkey : g.getKey? (.container h) key = none) :
    byKey (.container h) key none true g = vivifyKey (.container h) key g :=
  byKey_of_getKey?_eq_none hkey true

end Step

end GraphPath
