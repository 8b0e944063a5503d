import GraphPath.Method

/-! # The order of floats

Every float but NaN has a place among the others: by its sign, then by its exponent, then by
its mantissa (`floatRank?`).  Comparing two floats is comparing their places, and with NaN
nothing can be compared (`compareFloats_eq`).  Two floats are equal exactly if they have the
same place, as the two zeros do (`float_beq_iff`).
-/

namespace GraphPath
open Float.Model (UnpackedFloat)

/-- The place of a float among the others: its half, or the middle or one of the ends; in a half
its exponent, and at an exponent its mantissa. -/
abbrev FloatRank := Int × Int × Int

namespace FloatRank
variable {a b : FloatRank}

/-- Places are ordered from the first of their parts on. -/
def compare : FloatRank → FloatRank → Ordering :=
  compareLex (compareOn Prod.fst) (compareLex (compareOn (·.2.1)) (compareOn (·.2.2)))

instance : Std.TransCmp compare := inferInstanceAs (Std.TransCmp (compareLex _ _))

theorem compare_eq_eq_iff : compare a b = .eq ↔ a = b := by
  rw [compare, compareLex_eq_eq, compareLex_eq_eq]
  simp only [compareOn, Std.LawfulEqCmp.compare_eq_iff_eq]
  rw [← Prod.ext_iff, ← Prod.ext_iff]

theorem compare_ne_gt_iff : compare a b ≠ .gt ↔
    a.1 < b.1 ∨ a.1 = b.1 ∧ (a.2.1 < b.2.1 ∨ a.2.1 = b.2.1 ∧ a.2.2 ≤ b.2.2) := by
  simp only [compare, compareLex, compareOn, ne_eq, Ordering.then_eq_gt, Int.compare_eq_gt,
    Int.compare_eq_eq]
  omega

end FloatRank

/-- The place of a float that is taken apart. -/
def unpackedRank? : UnpackedFloat → Option FloatRank
  | .notANumber => none
  | .infinity .negative => some (-2, 0, 0)
  | .finite .negative mantissa exponent _ => some (-1, -exponent, -mantissa)
  | .zero _ => some (0, 0, 0)
  | .finite .positive mantissa exponent _ => some (1, exponent, mantissa)
  | .infinity .positive => some (2, 0, 0)

/-- **The place of a float among the others**; NaN has none. -/
def floatRank? (x : Float) : Option FloatRank := unpackedRank? x.toModel.unpack

/-- What two places compare to, if there are two. -/
def compareRanks (a? b? : Option FloatRank) : Option Ordering :=
  a?.bind fun a => b?.map fun b => a.compare b

theorem compareRanks_swap (a? b? : Option FloatRank) :
    (compareRanks a? b?).map Ordering.swap = compareRanks b? a? := by
  cases a? with
  | none => cases b? <;> rfl
  | some a =>
    cases b? with
    | none => rfl
    | some b => exact congrArg some Std.OrientedCmp.eq_swap.symm

theorem compareRanks_eq_some_eq_iff {a? b? : Option FloatRank} :
    compareRanks a? b? = some .eq ↔ a? = b? ∧ a? ≠ none := by
  cases a? <;> cases b? <;> simp [compareRanks, FloatRank.compare_eq_eq_iff]

theorem int_compare_neg (a b : Int) : compare (-a) (-b) = (compare a b).swap := by
  rw [Int.compare_swap]
  rcases Int.lt_trichotomy a b with h | rfl | h
  · rw [Int.compare_eq_gt.mpr (Int.neg_lt_neg h), Int.compare_eq_gt.mpr h]
  · simp
  · rw [Int.compare_eq_lt.mpr (Int.neg_lt_neg h), Int.compare_eq_lt.mpr h]

theorem int_compare_natCast (a b : Nat) : compare (a : Int) (b : Int) = compare a b := by
  rcases Nat.lt_trichotomy a b with h | rfl | h
  · rw [Int.compare_eq_lt.mpr (Int.ofNat_lt.mpr h), Nat.compare_eq_lt.mpr h]
  · simp
  · rw [Int.compare_eq_gt.mpr (Int.ofNat_lt.mpr h), Nat.compare_eq_gt.mpr h]

/-- Floats that are taken apart compare as their places do. -/
theorem compare_unpacked (x y : UnpackedFloat) :
    x.compare y = compareRanks (unpackedRank? x) (unpackedRank? y) := by
  match x, y with
  | .notANumber, _ => rfl
  | .infinity s, .notANumber | .finite s _ _ _, .notANumber => cases s <;> rfl
  | .zero _, .notANumber | .zero _, .zero _ => rfl
  | .infinity s, .infinity t | .infinity s, .finite t _ _ _ | .finite s _ _ _, .infinity t
  | .infinity s, .zero t | .zero s, .infinity t | .finite s _ _ _, .zero t
  | .zero s, .finite t _ _ _ => cases s <;> cases t <;> rfl
  | .finite .negative _ _ _, .finite .positive _ _ _ => rfl
  | .finite .positive _ _ _, .finite .negative _ _ _ => rfl
  | .finite .positive m e _, .finite .positive n f _ =>
    show some ((compare e f).then (compare m n)) =
      some ((compare e f).then (compare (m : Int) (n : Int)))
    rw [int_compare_natCast]
  | .finite .negative m e _, .finite .negative n f _ =>
    show some ((compare e f).then (compare m n)).swap =
      some ((compare (-e) (-f)).then (compare (-(m : Int)) (-(n : Int))))
    rw [int_compare_neg, int_compare_neg, int_compare_natCast, Ordering.swap_then]

section
variable {x y : Float}

theorem float_lt_iff : x < y ↔ compareRanks (floatRank? x) (floatRank? y) = some .lt := by
  rw [floatRank?, floatRank?, ← compare_unpacked]
  show decide (x.toModel < y.toModel) = true ↔ _
  rw [decide_eq_true_iff]
  show (x.toModel.unpack.compare y.toModel.unpack == some .lt) = true ↔ _
  rw [beq_iff_eq]

/-- **Floats are equal exactly if they have the same place**, and have one. -/
theorem float_beq_iff :
    (x == y) = true ↔ floatRank? x = floatRank? y ∧ floatRank? x ≠ none := by
  rw [← compareRanks_eq_some_eq_iff, floatRank?, floatRank?, ← compare_unpacked]
  show (x.toModel.unpack.compare y.toModel.unpack == some .eq) = true ↔ _
  rw [beq_iff_eq]

/-- **Comparing floats is comparing their places.** -/
theorem compareFloats_eq (x y : Float) :
    compareFloats x y = compareRanks (floatRank? x) (floatRank? y) := by
  unfold compareFloats
  simp only [float_lt_iff, float_beq_iff, ← compareRanks_eq_some_eq_iff,
    ← compareRanks_swap (floatRank? x) (floatRank? y)]
  cases compareRanks (floatRank? x) (floatRank? y) with
  | none => rfl
  | some order => cases order <;> rfl

/-- NaN is the float without a place. -/
theorem floatRank?_eq_none_iff : floatRank? x = none ↔ x.isNaN = true := by
  show unpackedRank? x.toModel.unpack = none ↔ x.toModel.unpack.isNaN = true
  cases x.toModel.unpack with
  | notANumber => exact ⟨fun _ => rfl, fun _ => rfl⟩
  | zero _ => exact ⟨nofun, nofun⟩
  | infinity s | finite s _ _ _ => cases s <;> exact ⟨nofun, nofun⟩

end

end GraphPath
