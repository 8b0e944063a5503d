import GraphPath.Proofs.Float.Nearest

/-! # The order that values sort by

Values that have an order come in three families: numbers, texts and truth values
(`Value.sortFamily?`).  Texts and truth values are each in a total order.  Numbers are in the
order of the floats nearest to them (`Value.numberRank?`), and integers among themselves in
their own.

Values that do not share a family count as equal, and so do an integer and the float nearest to
it.  In both cases a value may count as equal to two others that are not equal.  Apart from
that the order is consistent (`Value.compare_consistent`).
-/

namespace GraphPath

/-- The kinds of values that have an order among themselves. -/
inductive SortFamily
  | number
  | text
  | truth
  deriving DecidableEq

namespace Value
variable {a b c : Value}

/-- The family of a value; NaN, `null`, containers and callables have none. -/
def sortFamily? : Value → Option SortFamily
  | .integer _ => some .number
  | .float x => if x.isNaN then none else some .number
  | .string _ => some .text
  | .boolean _ => some .truth
  | .null | .container _ | .callable _ => none

/-- The place of a number among the floats. -/
def numberRank? : Value → Option FloatRank
  | .integer n => some (integerRank n.toInt)
  | .float x => floatRank? x
  | _ => none

/-- Two integers and between them a float that is the nearest one to both. -/
inductive NearestToBoth : Value → Value → Value → Prop
  | intro {m n : Int64} {x : Float} (hm : nearestFloat m == x) (hn : nearestFloat n == x) :
      NearestToBoth (.integer m) (.float x) (.integer n)

/-! ## Families -/

theorem sortFamily?_eq_number_iff :
    a.sortFamily? = some .number ↔ a.numberRank? ≠ none := by
  cases a with
  | float x =>
    rw [sortFamily?, numberRank?, ne_eq, floatRank?_eq_none_iff]
    cases x.isNaN <;> simp
  | _ => simp [sortFamily?, numberRank?]

theorem sortFamily?_eq_text (h : a.sortFamily? = some .text) : ∃ s, a = .string s := by
  cases a with
  | string s => exact ⟨s, rfl⟩
  | float x =>
    rw [sortFamily?] at h
    split at h <;> cases h
  | _ => cases h

theorem sortFamily?_eq_truth (h : a.sortFamily? = some .truth) : ∃ p, a = .boolean p := by
  cases a with
  | boolean p => exact ⟨p, rfl⟩
  | float x =>
    rw [sortFamily?] at h
    split at h <;> cases h
  | _ => cases h

/-- Numbers that are not both integers are in the order of their places. -/
theorem compare_float (x : Float) (b : Value) :
    (Value.float x).compare b = (compareRanks (floatRank? x) b.numberRank?).getD .eq := by
  cases b with
  | float y => rw [Value.compare, compareFloats_eq, numberRank?]
  | integer n => rw [Value.compare, compareFloats_eq, numberRank?, floatRank?_nearestFloat]
  | _ => cases h : floatRank? x <;> rfl

theorem compare_float_right (a : Value) (y : Float) :
    a.compare (.float y) = (compareRanks a.numberRank? (floatRank? y)).getD .eq := by
  cases a with
  | float x => exact compare_float x _
  | integer n => rw [Value.compare, compareFloats_eq, numberRank?, floatRank?_nearestFloat]
  | _ => rfl

/-- The order of two values is turned around with them. -/
theorem compare_swap (a b : Value) : b.compare a = (a.compare b).swap := by
  cases a with
  | float x =>
    rw [compare_float, compare_float_right, ← compareRanks_swap]
    cases compareRanks (floatRank? x) b.numberRank? <;> rfl
  | integer m =>
    cases b with
    | float y =>
      rw [compare_float, compare_float_right, ← compareRanks_swap (floatRank? y)]
      cases compareRanks (floatRank? y) (Value.integer m).numberRank? with
      | none => rfl
      | some order => exact order.swap_swap.symm
    | integer n => exact Std.OrientedOrd.eq_swap
    | _ => rfl
  | string s =>
    cases b with
    | string t => exact Std.OrientedOrd.eq_swap
    | _ => rfl
  | boolean p =>
    cases b with
    | boolean q => exact Std.OrientedOrd.eq_swap
    | _ => rfl
  | null | container _ | callable _ => cases b <;> rfl

/-- Only values of one family do not count as equal. -/
theorem sortFamily?_of_compare_ne_eq : a.compare b ≠ .eq →
    ∃ family, a.sortFamily? = some family ∧ b.sortFamily? = some family := by
  -- numbers that are not both integers count as equal unless both have a place
  have hnumbers (hrank : a.compare b = (compareRanks a.numberRank? b.numberRank?).getD .eq)
      (h : a.compare b ≠ .eq) :
      a.sortFamily? = some .number ∧ b.sortFamily? = some .number := by
    rw [hrank] at h
    rw [sortFamily?_eq_number_iff, sortFamily?_eq_number_iff]
    constructor
    · intro ha
      exact h (by rw [ha]; rfl)
    · intro hb
      exact h (by rw [hb]; cases a.numberRank? <;> rfl)
  fun_cases Value.compare a b with
  | case1 m n => exact fun _ => ⟨.number, rfl, rfl⟩
  | case2 x y => exact fun h => ⟨.number, hnumbers (compare_float x _) h⟩
  | case3 m y => exact fun h => ⟨.number, hnumbers (compare_float_right _ y) h⟩
  | case4 x n => exact fun h => ⟨.number, hnumbers (compare_float x _) h⟩
  | case5 s t => exact fun _ => ⟨.text, rfl, rfl⟩
  | case6 p q => exact fun _ => ⟨.truth, rfl, rfl⟩
  | case7 => exact fun h => absurd rfl h

/-- Values that do not share a family count as equal. -/
theorem compare_eq_of_apart (h : a.sortFamily? ≠ b.sortFamily?) : a.compare b = .eq := by
  by_contra hne
  obtain ⟨family, ha, hb⟩ := sortFamily?_of_compare_ne_eq hne
  exact h (ha.trans hb.symm)

/-- A number that is not greater has no greater place. -/
theorem rank_compare_ne_gt {r r' : FloatRank} (ha : a.numberRank? = some r)
    (hb : b.numberRank? = some r') (h : a.compare b ≠ .gt) : r.compare r' ≠ .gt := by
  cases a with
  | float x =>
    rw [compare_float, hb, show floatRank? x = some r from ha] at h
    exact h
  | integer m =>
    cases b with
    | float y =>
      rw [compare_float_right, ha, show floatRank? y = some r' from hb] at h
      exact h
    | integer n =>
      have hle : m ≤ n := Std.isLE_compare.mp (Ordering.isLE_iff_ne_gt.mpr h)
      obtain rfl : integerRank m.toInt = r := Option.some.inj ha
      obtain rfl : integerRank n.toInt = r' := Option.some.inj hb
      exact integerRank_mono (Int64.le_iff_toInt_le.mp hle)
    | _ => cases hb
  | _ => cases ha

/-! ## Three values -/

theorem compare_ne_gt_trans {α : Type} {cmp : α → α → Ordering} [Std.TransCmp cmp] {x y z : α}
    (hxy : cmp x y ≠ .gt) (hyz : cmp y z ≠ .gt) : cmp x z ≠ .gt :=
  Ordering.isLE_iff_ne_gt.mp (Std.TransCmp.isLE_trans (Ordering.isLE_iff_ne_gt.mpr hxy)
    (Ordering.isLE_iff_ne_gt.mpr hyz))

/-- Places that are not greater than one another are the same. -/
theorem rank_eq {r r' : FloatRank} (h : r.compare r' ≠ .gt) (h' : r'.compare r ≠ .gt) :
    r = r' := by
  rw [FloatRank.compare_ne_gt_iff] at h h'
  ext <;> omega

theorem nearestFloat_beq_iff {m : Int64} {x : Float} :
    (nearestFloat m == x) = true ↔ floatRank? x = some (integerRank m.toInt) := by
  rw [float_beq_iff, floatRank?_nearestFloat]
  exact ⟨fun h => h.1.symm, fun h => ⟨h.symm, by simp⟩⟩

/-- **Numbers are inconsistent only around the float nearest to two integers.** -/
theorem nearestToBoth_of_numbers (ha : a.sortFamily? = some .number)
    (hb : b.sortFamily? = some .number) (hc : c.sortFamily? = some .number)
    (hab : a.compare b ≠ .gt) (hbc : b.compare c ≠ .gt) (hac : a.compare c = .gt) :
    NearestToBoth a b c := by
  obtain ⟨r, ha⟩ := Option.ne_none_iff_exists'.mp (sortFamily?_eq_number_iff.mp ha)
  obtain ⟨s, hb⟩ := Option.ne_none_iff_exists'.mp (sortFamily?_eq_number_iff.mp hb)
  obtain ⟨t, hc⟩ := Option.ne_none_iff_exists'.mp (sortFamily?_eq_number_iff.mp hc)
  have hrs : r.compare s ≠ .gt := rank_compare_ne_gt ha hb hab
  have hst : s.compare t ≠ .gt := rank_compare_ne_gt hb hc hbc
  have hrt : r.compare t ≠ .gt := compare_ne_gt_trans hrs hst
  cases a with
  | float x =>
    rw [compare_float, hc, show floatRank? x = some r from ha] at hac
    exact absurd hac hrt
  | integer m =>
    cases c with
    | float y =>
      rw [compare_float_right, ha, show floatRank? y = some t from hc] at hac
      exact absurd hac hrt
    | integer n =>
      cases b with
      | integer k =>
        have hmn : Ord.compare m n ≠ .gt := compare_ne_gt_trans (y := k) hab hbc
        exact absurd hac hmn
      | float x =>
        -- the greater integer has no smaller place, and so the three places are one
        have htr : t.compare r ≠ .gt := rank_compare_ne_gt hc ha (by
          rw [compare_swap, hac]
          decide)
        have hr : r = s := rank_eq hrs (compare_ne_gt_trans hst htr)
        have ht : t = s := rank_eq (compare_ne_gt_trans htr hrs) hst
        cases ha
        cases hc
        exact .intro (nearestFloat_beq_iff.mpr (hr ▸ hb)) (nearestFloat_beq_iff.mpr (ht ▸ hb))
      | _ => cases hb
    | _ => cases hc
  | _ => cases ha

/-- A float that is the nearest one to two integers counts as equal to both. -/
theorem compare_eq_of_nearestToBoth (h : NearestToBoth a b c) :
    a.compare b = .eq ∧ b.compare c = .eq := by
  obtain ⟨hm, hn⟩ := h
  rw [nearestFloat_beq_iff] at hm hn
  rw [compare_float_right, compare_float, numberRank?, numberRank?, ← hm, ← hn,
    compareRanks_eq_some_eq_iff.mpr ⟨rfl, by simp [hm]⟩]
  exact ⟨rfl, rfl⟩

/-- **Values of one family are consistent**, but for the float nearest to two integers. -/
theorem nearestToBoth_of_family {family : SortFamily} (ha : a.sortFamily? = some family)
    (hb : b.sortFamily? = some family) (hc : c.sortFamily? = some family)
    (hab : a.compare b ≠ .gt) (hbc : b.compare c ≠ .gt) (hac : a.compare c = .gt) :
    NearestToBoth a b c := by
  cases family with
  | number => exact nearestToBoth_of_numbers ha hb hc hab hbc hac
  | text =>
    obtain ⟨s, rfl⟩ := sortFamily?_eq_text ha
    obtain ⟨t, rfl⟩ := sortFamily?_eq_text hb
    obtain ⟨u, rfl⟩ := sortFamily?_eq_text hc
    have hsu : Ord.compare s u ≠ .gt := compare_ne_gt_trans (y := t) hab hbc
    exact absurd hac hsu
  | truth =>
    obtain ⟨p, rfl⟩ := sortFamily?_eq_truth ha
    obtain ⟨q, rfl⟩ := sortFamily?_eq_truth hb
    obtain ⟨r, rfl⟩ := sortFamily?_eq_truth hc
    have hpr : Ord.compare p r ≠ .gt := compare_ne_gt_trans (y := q) hab hbc
    exact absurd hac hpr

/-- **The order that values sort by is consistent, but for the values that count as equal to
others.**  Turning two values around turns their order around.  Of three values, the first is
not after the second, the second is not after the third, and yet the first is after the third,
exactly if the second is of another family than the first, or a float that is the nearest one
to both of two integers. -/
theorem compare_consistent (a b c : Value) :
    b.compare a = (a.compare b).swap ∧
      (a.compare b ≠ .gt ∧ b.compare c ≠ .gt ∧ a.compare c = .gt ↔
        a.compare c = .gt ∧ (b.sortFamily? ≠ a.sortFamily? ∨ NearestToBoth a b c)) := by
  refine ⟨compare_swap a b, ?_, ?_⟩
  · rintro ⟨hab, hbc, hac⟩
    obtain ⟨family, ha, hc⟩ := sortFamily?_of_compare_ne_eq (by simp [hac] : a.compare c ≠ .eq)
    by_cases hfamily : b.sortFamily? = a.sortFamily?
    · exact ⟨hac, .inr (nearestToBoth_of_family ha (hfamily.trans ha) hc hab hbc hac)⟩
    · exact ⟨hac, .inl hfamily⟩
  · rintro ⟨hac, hapart | hnearest⟩
    · obtain ⟨family, ha, hc⟩ :=
        sortFamily?_of_compare_ne_eq (by simp [hac] : a.compare c ≠ .eq)
      rw [compare_eq_of_apart hapart.symm, compare_eq_of_apart (hc ▸ ha ▸ hapart)]
      exact ⟨by decide, by decide, hac⟩
    · have ⟨hab, hbc⟩ := compare_eq_of_nearestToBoth hnearest
      rw [hab, hbc]
      exact ⟨by decide, by decide, hac⟩

/-- A text between two numbers hides that they are out of order. -/
example : (integer 3).compare (string "x") = .eq ∧ (string "x").compare (integer 1) = .eq ∧
    (integer 3).compare (integer 1) = .gt := by decide

/-- So does a float between two integers that share it as their nearest one. -/
example : nearestFloat 9007199254740993 == nearestFloat 9007199254740992 := by decide +kernel

end Value

/-- **A list of one family is sorted**, if no float in it is the nearest one to two integers. -/
theorem sortValues_sorted {items : List Value} {family : SortFamily}
    (hfamily : ∀ v ∈ items, v.sortFamily? = some family)
    (hnearest : ∀ a ∈ items, ∀ b ∈ items, ∀ c ∈ items, ¬ Value.NearestToBoth a b c) :
    (sortValues items).Pairwise fun a b => a.compare b ≠ .gt := by
  -- the order is only consistent among the items, so they are sorted as such
  let le (a b : { v // v ∈ items }) : Bool := a.1.compare b.1 != .gt
  have hsorted : (items.attach.mergeSort le).Pairwise fun a b => le a b := by
    refine List.pairwise_mergeSort (fun a b c hab hbc => ?_) (fun a b => ?_) _
    · simp only [le, bne_iff_ne] at hab hbc ⊢
      exact fun hac => hnearest a a.2 b b.2 c c.2 (Value.nearestToBoth_of_family
        (hfamily a a.2) (hfamily b b.2) (hfamily c c.2) hab hbc hac)
    · simp only [le, Value.compare_swap a.1 b.1]
      cases a.1.compare b.1 <;> decide
  have hmap : sortValues items = (items.attach.mergeSort le).map (·.1) := by
    rw [List.map_mergeSort (s := fun a b : Value => a.compare b != .gt) fun _ _ _ _ => rfl,
      List.attach_map_subtype_val]
    rfl
  rw [hmap, List.pairwise_map]
  exact hsorted.imp fun h => bne_iff_ne.mp h

end GraphPath
