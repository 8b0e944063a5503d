import GraphPath.Graph.Equality
import GraphPath.Proofs.Float.Order
import GraphPath.Proofs.Graph.Loops
import Mathlib.Data.List.Perm.Subperm

/-! # Equality as a relation

Equality of values is symmetric and transitive, and a value without loops equals itself
exactly if no NaN can be reached from it (`Graph.equal_isPartialEquivalence`).

Only one case is not plain.  Two maps are compared from one side: they have the same size,
and what the first one has under a key equals what the second one has there.  This is the
same from the other side, because no key occurs twice, and so the keys of the first map are
all the keys of the second one (`OrderedMap.contains_of_size_eq`).

Equality looks into containers to a depth that is given beforehand.  Where there are no
loops, it never gets so deep that this would matter (`Graph.equalWithin_eq`), so that two
containers are equal exactly if their contents are (`Graph.equal_container`).
-/

namespace GraphPath

/-! ## Scalars -/

/-- What counts of a scalar when it is compared. -/
inductive ScalarForm where
  | null
  | boolean (b : Bool)
  | integer (n : Int64)
  | float (rank : FloatRank)
  | string (s : String)
  | callable (id : Nat)

namespace Value
variable {a b c : Value} {h : Handle}

theorem handle?_eq_some_iff : a.handle? = some h ↔ a = .container h := by
  cases a <;> simp [handle?]

/-- What counts of a value; nothing of NaN, and nothing of containers. -/
def form? : Value → Option ScalarForm
  | .null => some .null
  | .boolean b => some (.boolean b)
  | .integer n => some (.integer n)
  | .float x => (floatRank? x).map .float
  | .string s => some (.string s)
  | .callable f => some (.callable f.id)
  | .container _ => none

/-- **Scalars are equal exactly if the same counts of both**, and something does. -/
theorem scalarBeq_iff : a.scalarBeq b = true ↔ a.form? = b.form? ∧ a.form? ≠ none := by
  cases a <;> cases b
  case float.float x y =>
    cases hx : floatRank? x <;> cases hy : floatRank? y <;>
      simp [scalarBeq, form?, float_beq_iff, hx, hy]
  all_goals simp [scalarBeq, form?]

theorem scalarBeq_symm (a b : Value) : a.scalarBeq b = b.scalarBeq a := by
  rw [Bool.eq_iff_iff, scalarBeq_iff, scalarBeq_iff]
  constructor
  all_goals
    rintro ⟨hsame, hsome⟩
    exact ⟨hsame.symm, hsame ▸ hsome⟩

theorem scalarBeq_trans (hab : a.scalarBeq b = true) (hbc : b.scalarBeq c = true) :
    a.scalarBeq c = true := by
  rw [scalarBeq_iff] at hab hbc ⊢
  exact ⟨hab.1.trans hbc.1, hab.2⟩

/-- A scalar is equal to itself unless it is NaN. -/
theorem scalarBeq_self (ha : a.handle? = none) :
    a.scalarBeq a = true ↔ ∀ x, a = .float x → x.isNaN = false := by
  rw [scalarBeq_iff]
  cases a with
  | float x =>
    simp [form?, floatRank?_eq_none_iff]
  | container h => cases ha
  | _ => simp [form?]

end Value

/-! ## Contents of containers -/

/-- **A map that lacks no key of another one and has as many keys has no others.** -/
theorem OrderedMap.contains_of_size_eq {α : Type} {xs ys : OrderedMap String α}
    (hsize : xs.size = ys.size) (hkeys : ∀ key, xs.contains key → ys.contains key) :
    ∀ key, ys.contains key → xs.contains key := by
  simp only [contains_iff_mem_keys] at hkeys ⊢
  have hlength : ys.keys.length ≤ xs.keys.length := by
    simp only [keys, List.length_map]
    exact Nat.le_of_eq hsize.symm
  have hperm : xs.keys.Perm ys.keys := (xs.keys_nodup.subperm hkeys).perm_of_length_le hlength
  exact fun key hkey => hperm.mem_iff.mpr hkey

namespace Cell
variable {same same' : Value → Value → Bool} {c d e : Cell} {xs ys : List Value}
  {fields fields' : OrderedMap String Value}

/-- **What is found in one place is found in the other**, up to what counts as equal. -/
def Agrees {κ : Type} (same : Value → Value → Bool) (find find' : κ → Option Value) : Prop :=
  ∀ k v, find k = some v → ∃ w, find' k = some w ∧ same v w = true

theorem Agrees.isSome {κ : Type} {find find' : κ → Option Value} (h : Agrees same find find')
    {k : κ} (hk : (find k).isSome) : (find' k).isSome := by
  obtain ⟨v, hv⟩ := Option.isSome_iff_exists.mp hk
  obtain ⟨w, hw, -⟩ := h k v hv
  exact hw ▸ rfl

theorem Agrees.symm {κ : Type} {find find' : κ → Option Value} (h : Agrees same find find')
    (hsame : ∀ v w, same v w = same w v) (hall : ∀ k, (find' k).isSome → (find k).isSome) :
    Agrees same find' find := by
  intro k w hw
  obtain ⟨v, hv⟩ := Option.isSome_iff_exists.mp (hall k (hw ▸ rfl))
  obtain ⟨w', hw', heq⟩ := h k v hv
  obtain rfl : w' = w := Option.some.inj (hw'.symm.trans hw)
  exact ⟨v, hv, hsame v w' ▸ heq⟩

theorem Agrees.trans {κ : Type} {find find' find'' : κ → Option Value}
    (h : Agrees same find find') (h' : Agrees same find' find'')
    (hsame : ∀ u v w, same u v = true → same v w = true → same u w = true) :
    Agrees same find find'' := by
  intro k u hu
  obtain ⟨v, hv, huv⟩ := h k u hu
  obtain ⟨w, hw, hvw⟩ := h' k v hv
  exact ⟨w, hw, hsame u v w huv hvw⟩

/-- Lists are equal position by position. -/
theorem beq_list_iff : (list xs).beq same (list ys) = true ↔
    xs.length = ys.length ∧ Agrees same (fun i : Nat => xs[i]?) (fun i : Nat => ys[i]?) := by
  rw [beq, Bool.and_eq_true, beq_iff_eq, List.all_eq_true]
  refine and_congr_right fun hlength => ⟨fun h i v hv => ?_, fun h pair hpair => ?_⟩
  · obtain ⟨hi, -⟩ := List.getElem?_eq_some_iff.mp hv
    have hw : ys[i]? = some ys[i] := List.getElem?_eq_getElem (hlength ▸ hi)
    exact ⟨ys[i], hw, h (v, ys[i]) (List.mem_of_getElem? (List.getElem?_zip_eq_some.mpr ⟨hv, hw⟩))⟩
  · obtain ⟨i, hi⟩ := List.mem_iff_getElem?.mp hpair
    obtain ⟨hv, hw⟩ := List.getElem?_zip_eq_some.mp hi
    obtain ⟨w, hw', heq⟩ := h i pair.1 hv
    cases hw.symm.trans hw'
    exact heq

/-- Maps are equal key by key. -/
theorem beq_map_iff : (map fields).beq same (map fields') = true ↔
    fields.size = fields'.size ∧ Agrees same fields.get? fields'.get? := by
  rw [beq, Bool.and_eq_true, beq_iff_eq, List.all_eq_true]
  refine and_congr_right fun _ => ⟨fun h key v hv => ?_, fun h field hfield => ?_⟩
  · have hfield := h (key, v) (fields.get?_eq_some_iff.mp hv)
    dsimp only at hfield
    split at hfield
    · rename_i w hw
      exact ⟨w, hw, hfield⟩
    · cases hfield
  · obtain ⟨w, hw, heq⟩ := h field.1 field.2 (fields.get?_eq_some_iff.mpr hfield)
    rw [hw]
    exact heq

/-- **Equality of contents is symmetric** if equality inside them is. -/
theorem beq_symm (hsame : ∀ v w, same v w = same w v) (c d : Cell) :
    c.beq same d = d.beq same c := by
  have hle : ∀ c d : Cell, c.beq same d = true → d.beq same c = true := by
    intro c d h
    cases c with
    | list xs =>
      cases d with
      | map _ => cases h
      | list ys =>
        rw [beq_list_iff] at h ⊢
        refine ⟨h.1.symm, h.2.symm hsame fun i hi => ?_⟩
        rw [isSome_getElem?] at hi ⊢
        exact h.1 ▸ hi
    | map fields =>
      cases d with
      | list _ => cases h
      | map fields' =>
        rw [beq_map_iff] at h ⊢
        exact ⟨h.1.symm, h.2.symm hsame
          (OrderedMap.contains_of_size_eq h.1 fun _ => h.2.isSome)⟩
  rw [Bool.eq_iff_iff]
  exact ⟨hle c d, hle d c⟩

/-- **Equality of contents is transitive** if equality inside them is. -/
theorem beq_trans (hsame : ∀ u v w, same u v = true → same v w = true → same u w = true)
    (hcd : c.beq same d = true) (hde : d.beq same e = true) : c.beq same e = true := by
  cases c with
  | list xs =>
    cases d with
    | map _ => cases hcd
    | list ys =>
      cases e with
      | map _ => cases hde
      | list zs =>
        rw [beq_list_iff] at hcd hde ⊢
        exact ⟨hcd.1.trans hde.1, hcd.2.trans hde.2 hsame⟩
  | map fields =>
    cases d with
    | list _ => cases hcd
    | map fields' =>
      cases e with
      | list _ => cases hde
      | map fields'' =>
        rw [beq_map_iff] at hcd hde ⊢
        exact ⟨hcd.1.trans hde.1, hcd.2.trans hde.2 hsame⟩

/-- Contents are equal to themselves if all values in them are. -/
theorem beq_self : c.beq same c = true ↔ ∀ v ∈ c.values, same v v = true := by
  cases c with
  | list xs =>
    rw [beq_list_iff]
    refine ⟨fun h v hv => ?_, fun h => ⟨rfl, fun i v hv => ⟨v, hv, h v (List.mem_of_getElem? hv)⟩⟩⟩
    obtain ⟨i, hi⟩ := List.mem_iff_getElem?.mp hv
    obtain ⟨w, hw, heq⟩ := h.2 i v hi
    cases hi.symm.trans hw
    exact heq
  | map fields =>
    rw [beq_map_iff]
    refine ⟨fun h v hv => ?_, fun h => ⟨rfl, fun key v hv => ⟨v, hv, ?_⟩⟩⟩
    · obtain ⟨⟨key, v⟩, hfield, rfl⟩ := List.mem_map.mp hv
      have hfound : fields.get? key = some v := fields.get?_eq_some_iff.mpr hfield
      obtain ⟨w, hw, heq⟩ := h.2 key v hfound
      cases hfound.symm.trans hw
      exact heq
    · exact h v (List.mem_map.mpr ⟨(key, v), fields.get?_eq_some_iff.mp hv, rfl⟩)

theorem agrees_congr {κ : Type} {find find' : κ → Option Value}
    (h : ∀ k v, find k = some v → ∀ w, same v w = same' v w) :
    Agrees same find find' ↔ Agrees same' find find' := by
  refine forall₃_congr fun k v hv => ?_
  simp only [h k v hv]

/-- Only what counts as equal to the values of the first matters. -/
theorem beq_congr (h : ∀ v ∈ c.values, ∀ w, same v w = same' v w) :
    c.beq same d = c.beq same' d := by
  rw [Bool.eq_iff_iff]
  cases c with
  | list xs =>
    cases d with
    | map _ => rfl
    | list ys =>
      rw [beq_list_iff, beq_list_iff]
      exact and_congr_right fun _ => agrees_congr fun i v hv => h v (List.mem_of_getElem? hv)
  | map fields =>
    cases d with
    | list _ => rfl
    | map fields' =>
      rw [beq_map_iff, beq_map_iff]
      exact and_congr_right fun _ => agrees_congr fun key v hv =>
        h v (mem_values_of_get? (show (Cell.map fields).get? key = some v from hv))

end Cell

/-! ## Values -/

namespace Graph
variable {g : Graph} {a b c : Value} {h k : Handle}

theorem equalWithin_symm (depth : Nat) (a b : Value) :
    g.equalWithin depth a b = g.equalWithin depth b a := by
  induction depth generalizing a b with
  | zero => cases a <;> cases b <;> simp only [equalWithin, Value.scalarBeq_symm]
  | succ depth ih =>
    cases a <;> cases b <;> simp only [equalWithin, Value.scalarBeq_symm]
    exact Cell.beq_symm ih _ _

/-- A scalar equals nothing but scalars. -/
theorem equalWithin_container_right (depth : Nat) (k : Handle) (ha : a.handle? = none) :
    g.equalWithin depth a (.container k) = false :=
  (equalWithin_symm depth a (.container k)).trans (g.equalWithin_container_left depth k ha)

/-- Values that are equal are scalars both, or containers both, with equal contents. -/
theorem equalWithin_cases {depth : Nat} (hab : g.equalWithin depth a b = true) :
    (a.handle? = none ∧ b.handle? = none ∧ a.scalarBeq b = true) ∨
      ∃ n h k, depth = n + 1 ∧ a = .container h ∧ b = .container k ∧
        (g.read h).beq (g.equalWithin n) (g.read k) = true := by
  cases ha : a.handle? with
  | none =>
    cases hb : b.handle? with
    | none => exact Or.inl ⟨rfl, rfl, g.equalWithin_of_handle?_eq_none depth ha hb ▸ hab⟩
    | some k =>
      rw [Value.handle?_eq_some_iff] at hb
      rw [hb, equalWithin_container_right depth k ha] at hab
      cases hab
  | some h =>
    rw [Value.handle?_eq_some_iff] at ha
    cases hb : b.handle? with
    | none =>
      rw [ha, equalWithin_container_left g depth h hb] at hab
      cases hab
    | some k =>
      rw [Value.handle?_eq_some_iff] at hb
      subst ha hb
      cases depth with
      | zero => cases hab
      | succ n => exact Or.inr ⟨n, h, k, rfl, rfl, rfl, hab⟩

theorem equalWithin_trans {depth : Nat} (hab : g.equalWithin depth a b = true)
    (hbc : g.equalWithin depth b c = true) : g.equalWithin depth a c = true := by
  induction depth generalizing a b c with
  | zero =>
    rcases equalWithin_cases hab with ⟨ha, hb, hab⟩ | ⟨n, h, k, hdepth, -⟩
    · rcases equalWithin_cases hbc with ⟨-, hc, hbc⟩ | ⟨n, h, k, hdepth, -⟩
      · rw [equalWithin_of_handle?_eq_none g 0 ha hc]
        exact Value.scalarBeq_trans hab hbc
      · cases hdepth
    · cases hdepth
  | succ depth ih =>
    rcases equalWithin_cases hab with ⟨ha, hb, hab⟩ | ⟨n, h, k, hdepth, rfl, rfl, hab⟩
    · rcases equalWithin_cases hbc with ⟨-, hc, hbc⟩ | ⟨n, h, k, -, rfl, -⟩
      · rw [equalWithin_of_handle?_eq_none g _ ha hc]
        exact Value.scalarBeq_trans hab hbc
      · cases hb
    · rcases equalWithin_cases hbc with ⟨hb, -⟩ | ⟨n', k', l, hdepth', hk, rfl, hbc⟩
      · cases hb
      · cases hdepth
        cases hdepth'
        cases hk
        exact Cell.beq_trans (fun _ _ _ => ih) hab hbc

/-! ## Depth -/

theorem equalWithin_of_scalar (ha : a.handle? = none) (depth depth' : Nat) (b : Value) :
    g.equalWithin depth a b = g.equalWithin depth' a b := by
  cases hb : b.handle? with
  | none =>
    rw [g.equalWithin_of_handle?_eq_none depth ha hb, g.equalWithin_of_handle?_eq_none depth' ha hb]
  | some k =>
    obtain rfl := Value.handle?_eq_some_iff.mp hb
    rw [equalWithin_container_right depth k ha, equalWithin_container_right depth' k ha]

/-- **No loop can be reached from a value.** -/
def Loopless (g : Graph) (v : Value) : Prop :=
  ∀ w, g.Reaches v w → ¬ Relation.TransGen g.Inside w w

theorem Loopless.inside (ha : g.Loopless a) (hin : g.Inside a b) : g.Loopless b :=
  fun w hreach => ha w (Relation.ReflTransGen.head hin hreach)

/-- **Depth does not matter for a value without loops**, if it is enough for the containers that can
be reached from it. -/
theorem equalWithin_eq (hg : g.Closed) {depth depth' : Nat} (ha : g.Holds a) (hloop : g.Loopless a)
    (hdepth : (g.below a).card ≤ depth) (hdepth' : (g.below a).card ≤ depth') (b : Value) :
    g.equalWithin depth a b = g.equalWithin depth' a b := by
  induction depth generalizing a b depth' with
  | zero =>
    cases hh : a.handle? with
    | some h =>
      obtain rfl := Value.handle?_eq_some_iff.mp hh
      exact absurd (card_below_pos ha) (Nat.not_lt.mpr hdepth)
    | none => exact equalWithin_of_scalar hh 0 depth' b
  | succ depth ih =>
    cases hh : a.handle? with
    | none => exact equalWithin_of_scalar hh _ depth' b
    | some h =>
      obtain rfl := Value.handle?_eq_some_iff.mp hh
      cases hk : b.handle? with
      | none => rw [g.equalWithin_container_left _ h hk, g.equalWithin_container_left _ h hk]
      | some k =>
        obtain rfl := Value.handle?_eq_some_iff.mp hk
        have hpos := card_below_pos ha
        obtain ⟨depth', rfl⟩ := Nat.exists_eq_succ_of_ne_zero (n := depth') (by omega)
        refine Cell.beq_congr fun v hv w => ?_
        have hin : g.Inside (.container h) v := inside_container_iff.mpr hv
        have hcard := card_below_lt (hloop _ (.refl _)) hin
        exact ih (hg h v hv) (hloop.inside hin) (by omega) (by omega) w

/-- **Containers are equal exactly if their contents are.** -/
theorem equal_container (hg : g.Closed) (hlt : h < g.cells.size)
    (hloop : g.Loopless (.container h)) (k : Handle) :
    g.equal (.container h) (.container k) = (g.read h).beq g.equal (g.read k) := by
  have hle : (g.below (.container h)).card ≤ g.cells.size := card_below_le _
  -- one of the containers is entered here, and so there is depth for one less inside
  obtain ⟨n, hn⟩ := Nat.exists_eq_succ_of_ne_zero (Nat.ne_of_gt (Nat.zero_lt_of_lt hlt))
  rw [equal, hn]
  refine Cell.beq_congr fun v hv w => ?_
  have hin : g.Inside (.container h) v := inside_container_iff.mpr hv
  have hcard := card_below_lt (hloop _ (.refl _)) hin
  exact equalWithin_eq hg (hg h v hv) (hloop.inside hin) (by omega) (by omega) w

/-- A value without loops is equal to itself exactly if no NaN can be reached from it. -/
theorem equal_self (hg : g.Closed) (ha : g.Holds a) (hloop : g.Loopless a) :
    g.equal a a = true ↔ ∀ x, g.Reaches a (.float x) → x.isNaN = false := by
  induction hcard : (g.below a).card using Nat.strongRecOn generalizing a with
  | ind n ih =>
    cases hh : a.handle? with
    | none =>
      rw [equal, g.equalWithin_of_handle?_eq_none _ hh hh, Value.scalarBeq_self hh]
      refine forall_congr' fun x => imp_congr_left ⟨fun heq => heq ▸ .refl _, fun hreach => ?_⟩
      refine (hreach.eq_of_not_inside fun w hin => ?_).symm
      obtain ⟨h, rfl⟩ := hin.exists_handle
      cases hh
    | some h =>
      obtain rfl := Value.handle?_eq_some_iff.mp hh
      have hinside : ∀ v ∈ (g.read h).values, g.equal v v = true ↔
          ∀ x, g.Reaches v (.float x) → x.isNaN = false := by
        intro v hv
        have hin : g.Inside (.container h) v := inside_container_iff.mpr hv
        exact ih _ (hcard ▸ card_below_lt (hloop _ (.refl _)) hin) (hg h v hv) (hloop.inside hin)
          rfl
      rw [equal_container hg ha hloop, Cell.beq_self]
      constructor
      · intro hall x hreach
        rcases Relation.ReflTransGen.cases_head hreach with heq | ⟨v, hin, hrest⟩
        · cases heq
        · have hv := inside_container_iff.mp hin
          exact (hinside v hv).mp (hall v hv) x hrest
      · intro hall v hv
        refine (hinside v hv).mpr fun x hreach => hall x ?_
        exact Relation.ReflTransGen.head (inside_container_iff.mpr hv) hreach

/-- **Equality is a partial equivalence.**  It is symmetric and transitive, and a value without
loops is equal to itself exactly if no NaN can be reached from it; two containers are equal exactly
if their contents are. -/
theorem equal_isPartialEquivalence (hg : g.Closed) (ha : g.Holds a) (hloop : g.Loopless a)
    (b c : Value) :
    g.equal a b = g.equal b a ∧
      (g.equal a b = true → g.equal b c = true → g.equal a c = true) ∧
      (g.equal a a = true ↔ ∀ x, g.Reaches a (.float x) → x.isNaN = false) ∧
      ∀ h k, a = .container h → b = .container k →
        g.equal a b = (g.read h).beq g.equal (g.read k) := by
  refine ⟨equalWithin_symm _ a b, equalWithin_trans, equal_self hg ha hloop, ?_⟩
  rintro h k rfl rfl
  exact equal_container hg ha hloop k

/-- Two maps with their keys in different orders, and equal lists under one of them. -/
theorem equal_isPartialEquivalence_maps :
    let g : Graph := { cells := #[.list [.float 1.5], .list [.float 1.5],
      .map (.ofList [("x", .container 0), ("y", .null)]),
      .map (.ofList [("y", .null), ("x", .container 1)])] }
    let a := Value.container 2
    let b := Value.container 3
    g.Closed ∧ g.Holds a ∧ g.Loopless a ∧ g.equal a b = true ∧ g.equal b a = true ∧
      g.equal a a = true ∧ ∀ x, g.Reaches a (.float x) → x.isNaN = false := by
  intro g a b
  have hhandle : ∀ h k, .container k ∈ (g.read h).values → k < h ∧ h < 4 := by
    intro h k hk
    match h with
    | 0 | 1 =>
      have hk : Value.container k ∈ [Value.float 1.5] := hk
      simp at hk
    | 2 =>
      have hk : Value.container k ∈ [Value.container 0, .null] := hk
      obtain rfl : k = 0 := by simpa using hk
      decide
    | 3 =>
      have hk : Value.container k ∈ [Value.null, .container 1] := hk
      obtain rfl : k = 1 := by simpa using hk
      decide
    | h + 4 => cases hk
  have ha : g.Holds a := by
    show 2 < 4
    decide
  have hclosed : g.Closed := fun h v hv => by
    cases v with
    | container k => exact Nat.lt_trans (hhandle h k hv).1 (hhandle h k hv).2
    | _ => trivial
  have hlayered : g.Layered := fun h k hin => (hhandle h k (inside_container_iff.mp hin)).1
  have hloop : g.Loopless a := fun w _ => hlayered.acyclic w
  obtain ⟨hsymm, htrans, hself, -⟩ := equal_isPartialEquivalence hclosed ha hloop b a
  have hab : g.equal a b = true := by decide +kernel
  have haa : g.equal a a = true := htrans hab (hsymm ▸ hab)
  exact ⟨hclosed, ha, hloop, hab, hsymm ▸ hab, haa, hself.mp haa⟩

end Graph

end GraphPath
