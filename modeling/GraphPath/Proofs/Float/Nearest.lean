import Mathlib
import GraphPath.Proofs.Float.Order

/-! # The float nearest to an integer

A positive number keeps the 53 bits from its highest on, rounded by the bits below them
(`roundedBits`); rounding may carry into one more bit, and then the exponent grows by one
(`nearestBits`).  Both steps keep the order of numbers, so the floats nearest to integers are
in the order of the integers, though different integers may share one
(`floatRank?_nearestFloat_mono`).

The lemmas that read the fields of a packed float (`unpackSign_packComponents` and its like) are in
no part of the library but the whole of it, hence the import.
-/

namespace GraphPath
open Float.Model Float.Model.UnpackedFloat

/-! ## Shifting and rounding a mantissa -/

namespace Mantissa
variable {a b : ExtendedMantissa} {n : Nat}

/-- A mantissa with the two bits below it, as one number. -/
def weight (a : ExtendedMantissa) : Nat :=
  4 * a.mantissa + 2 * a.roundBit.toNat + a.stickyBit.toNat

/-- A shift by one bit keeps, of the bits below the mantissa, whether any is set. -/
theorem weight_shiftRightOne (a : ExtendedMantissa) :
    weight a.shiftRightOne = 2 * (weight a / 4) + min 1 (weight a % 4) := by
  obtain ⟨m, r, s⟩ := a
  cases r <;> cases s <;> rcases Nat.mod_two_eq_zero_or_one m with h | h <;>
    simp [weight, ExtendedMantissa.shiftRightOne, h] <;> omega

theorem roundedMantissa_eq (a : ExtendedMantissa) :
    a.roundedMantissa = (weight a + 1 + weight a / 4 % 2) / 4 := by
  obtain ⟨m, r, s⟩ := a
  cases r <;> cases s <;> rcases Nat.mod_two_eq_zero_or_one m with h | h <;>
    simp [weight, ExtendedMantissa.roundedMantissa, ExtendedMantissa.accuracy,
      Accuracy.roundToNearestEven, h] <;> omega

theorem shiftRight_succ (a : ExtendedMantissa) (n : Nat) :
    a >>> (n + 1) = (a >>> n).shiftRightOne := rfl

theorem mantissa_shiftRight (a : ExtendedMantissa) (n : Nat) :
    (a >>> n).mantissa = a.mantissa / 2 ^ n := by
  induction n with
  | zero => exact (Nat.div_one _).symm
  | succ n ih =>
    rw [shiftRight_succ, Nat.pow_succ, ← Nat.div_div_eq_div_mul, ← ih]
    rfl

theorem weight_shiftRight_mono (h : weight a ≤ weight b) (n : Nat) :
    weight (a >>> n) ≤ weight (b >>> n) := by
  induction n with
  | zero => exact h
  | succ n ih =>
    rw [shiftRight_succ, shiftRight_succ, weight_shiftRightOne, weight_shiftRightOne]
    omega

theorem roundedMantissa_mono (h : weight a ≤ weight b) :
    a.roundedMantissa ≤ b.roundedMantissa := by
  rw [roundedMantissa_eq, roundedMantissa_eq]
  rcases (Nat.div_le_div_right h : weight a / 4 ≤ weight b / 4).eq_or_lt with heq | hlt
  · rw [heq]
    omega
  · omega

theorem le_roundedMantissa (a : ExtendedMantissa) : a.mantissa ≤ a.roundedMantissa := by
  rw [roundedMantissa_eq, weight]
  omega

theorem roundedMantissa_le (a : ExtendedMantissa) : a.roundedMantissa ≤ a.mantissa + 1 := by
  rw [roundedMantissa_eq, weight]
  have := a.roundBit.toNat_le
  have := a.stickyBit.toNat_le
  omega

end Mantissa

/-! ## The nearest number of 53 bits -/

section
variable {m n : Nat}

/-- The 53 bits of a number from its highest on, and what is below them. -/
def leadingBits (m : Nat) : ExtendedMantissa :=
  (⟨m <<< (52 - m.log2), false, false⟩ : ExtendedMantissa) >>> (m.log2 - 52)

/-- The leading bits of a number, rounded to the nearest and to the even one of two. -/
def roundedBits (m : Nat) : Nat := (leadingBits m).roundedMantissa

/-- The exponent and the mantissa of the float nearest to a number. -/
def nearestBits (m : Nat) : Int × Nat :=
  if roundedBits m < 2 ^ 53 then (m.log2 - 52, roundedBits m) else (m.log2 - 51, 2 ^ 52)

theorem nearestBits_of_lt (h : roundedBits m < 2 ^ 53) :
    nearestBits m = ((m.log2 : Int) - 52, roundedBits m) := if_pos h

theorem nearestBits_of_not_lt (h : ¬ roundedBits m < 2 ^ 53) :
    nearestBits m = ((m.log2 : Int) - 51, 2 ^ 52) := if_neg h

theorem mantissa_leadingBits (m : Nat) :
    (leadingBits m).mantissa = m * 2 ^ (52 - m.log2) / 2 ^ (m.log2 - 52) := by
  rw [leadingBits, Mantissa.mantissa_shiftRight, Nat.shiftLeft_eq]

/-- There are 53 leading bits. -/
theorem mantissa_leadingBits_bounds (hm : m ≠ 0) :
    2 ^ 52 ≤ (leadingBits m).mantissa ∧ (leadingBits m).mantissa < 2 ^ 53 := by
  have hlow : 2 ^ m.log2 ≤ m := Nat.log2_self_le hm
  have hhigh : m < 2 ^ (m.log2 + 1) := Nat.lt_log2_self
  have hpos : 0 < 2 ^ (52 - m.log2) := Nat.two_pow_pos _
  rw [mantissa_leadingBits]
  constructor
  · rw [Nat.le_div_iff_mul_le (Nat.two_pow_pos _)]
    calc 2 ^ 52 * 2 ^ (m.log2 - 52) = 2 ^ m.log2 * 2 ^ (52 - m.log2) := by
          rw [← Nat.pow_add, ← Nat.pow_add]
          congr 1
          omega
      _ ≤ m * 2 ^ (52 - m.log2) := Nat.mul_le_mul_right _ hlow
  · rw [Nat.div_lt_iff_lt_mul (Nat.two_pow_pos _)]
    calc m * 2 ^ (52 - m.log2) < 2 ^ (m.log2 + 1) * 2 ^ (52 - m.log2) :=
          Nat.mul_lt_mul_of_pos_right hhigh hpos
      _ = 2 ^ 53 * 2 ^ (m.log2 - 52) := by
          rw [← Nat.pow_add, ← Nat.pow_add]
          congr 1
          omega

theorem roundedBits_bounds (hm : m ≠ 0) : 2 ^ 52 ≤ roundedBits m ∧ roundedBits m ≤ 2 ^ 53 := by
  have ⟨hlow, hhigh⟩ := mantissa_leadingBits_bounds hm
  exact ⟨hlow.trans (Mantissa.le_roundedMantissa _),
    (Mantissa.roundedMantissa_le _).trans hhigh⟩

/-- Of numbers with the same highest bit, the greater one rounds to no less. -/
theorem roundedBits_mono (h : m ≤ n) (hlog : m.log2 = n.log2) :
    roundedBits m ≤ roundedBits n := by
  refine Mantissa.roundedMantissa_mono ?_
  rw [leadingBits, leadingBits, hlog]
  refine Mantissa.weight_shiftRight_mono ?_ _
  have := Nat.mul_le_mul_right (2 ^ (52 - n.log2)) h
  simp only [Mantissa.weight, Nat.shiftLeft_eq]
  omega

theorem nearestBits_bounds (hm : m ≠ 0) :
    2 ^ 52 ≤ (nearestBits m).2 ∧ (nearestBits m).2 < 2 ^ 53 := by
  have := roundedBits_bounds hm
  unfold nearestBits
  split
  · exact ⟨this.1, by assumption⟩
  · exact ⟨Nat.le_refl _, by simp⟩

theorem nearestBits_exponent (m : Nat) :
    (m.log2 : Int) - 52 ≤ (nearestBits m).1 ∧ (nearestBits m).1 ≤ m.log2 - 51 := by
  unfold nearestBits
  split
  · exact ⟨Int.le_refl _, by omega⟩
  · exact ⟨by omega, Int.le_refl _⟩

/-- **Rounding keeps the order of numbers**: exponents first, then mantissas. -/
theorem nearestBits_mono (hm : m ≠ 0) (h : m ≤ n) :
    (nearestBits m).1 < (nearestBits n).1 ∨
      (nearestBits m).1 = (nearestBits n).1 ∧ (nearestBits m).2 ≤ (nearestBits n).2 := by
  have hn : n ≠ 0 := by omega
  have hlog : m.log2 ≤ n.log2 := (Nat.le_log2 hn).mpr ((Nat.log2_self_le hm).trans h)
  rcases hlog.eq_or_lt with hlog | hlog
  · -- the highest bit is the same: only the rounded bits matter
    have hbits := roundedBits_mono h hlog
    unfold nearestBits
    split <;> split
    · exact .inr ⟨by rw [hlog], hbits⟩
    · exact .inl (by simp only; omega)
    · omega
    · exact .inr ⟨by rw [hlog], Nat.le_refl _⟩
  · -- `m` may carry up to the exponent of `n`, and then its mantissa is the least there is
    have hexp := (nearestBits_exponent n).1
    have hleast := (nearestBits_bounds hn).1
    by_cases hcarry : roundedBits m < 2 ^ 53
    · rw [nearestBits_of_lt hcarry]
      exact .inl (by simp only; omega)
    · rw [nearestBits_of_not_lt hcarry]
      rcases (show (m.log2 : Int) - 51 ≤ (nearestBits n).1 by omega).lt_or_eq with hlt | heq
      · exact .inl hlt
      · exact .inr ⟨heq, hleast⟩

/-! ## The nearest float -/

theorem targetExponent_eq {total : Int} (h : -1021 ≤ total) :
    Format.binary64.targetExponent total = total - 53 := by
  rw [Format.targetExponent, Format.minExponent, Format.mantissaBits]
  norm_num
  omega

/-- A mantissa is shifted until 53 bits are left of it. -/
theorem shiftToTargetExponent_eq {bits : Nat} {exponent : Int}
    (h : -1022 ≤ bits.log2 + exponent) :
    shiftToTargetExponent .binary64 bits exponent .exact =
      ((⟨bits, false, false⟩ : ExtendedMantissa) >>> (bits.log2 - 52),
        exponent + (bits.log2 - 52 : Nat)) := by
  rw [shiftToTargetExponent, totalExponent, targetExponent_eq (by omega), shiftToExponent,
    show ((bits.log2 : Int) + 1 + exponent - 53 - exponent).toNat = bits.log2 - 52 by omega]
  rfl

/-- Rounding takes two shifts: one before the bits are rounded, and one in case they carry. -/
theorem roundWithAccuracy_eq {sign : Sign} {bits : Nat} {exponent first last : Int}
    {left rounded : ExtendedMantissa} (hmantissa : rounded.mantissa ≠ 0)
    (hfirst : shiftToTargetExponent .binary64 bits exponent .exact = (left, first))
    (hlast : shiftToTargetExponent .binary64 left.roundedMantissa first .exact =
      (rounded, last)) :
    roundWithAccuracy .binary64 sign bits exponent .exact =
      .finite sign rounded.mantissa last (Nat.pos_of_ne_zero hmantissa) := by
  rw [roundWithAccuracy, hfirst]
  simp only [hlast]
  exact dif_neg hmantissa

/-- Rounded bits are not shifted again unless they carry. -/
theorem shiftToTargetExponent_roundedBits (hm : m ≠ 0) :
    shiftToTargetExponent .binary64 (roundedBits m) ((m.log2 : Int) - 52) .exact =
      (⟨(nearestBits m).2, false, false⟩, (nearestBits m).1) := by
  have ⟨hlow, hhigh⟩ := roundedBits_bounds hm
  by_cases hcarry : roundedBits m < 2 ^ 53
  · have hlog : (roundedBits m).log2 = 52 := (Nat.log2_eq_iff (by omega)).mpr ⟨hlow, hcarry⟩
    rw [shiftToTargetExponent_eq (by omega), hlog, nearestBits_of_lt hcarry,
      show (m.log2 : Int) - 52 + (52 - 52 : Nat) = m.log2 - 52 by omega]
    rfl
  · rw [nearestBits_of_not_lt hcarry, show roundedBits m = 2 ^ 53 by omega,
      shiftToTargetExponent_eq (by rw [Nat.log2_two_pow]; omega), Nat.log2_two_pow,
      show (m.log2 : Int) - 52 + (53 - 52 : Nat) = m.log2 - 51 by omega]
    rfl

theorem log2_shiftLeft (hm : m ≠ 0) (k : Nat) : (m <<< k).log2 = m.log2 + k := by
  have hpos : 0 < 2 ^ k := Nat.two_pow_pos k
  rw [Nat.shiftLeft_eq, Nat.log2_eq_iff (Nat.mul_ne_zero hm hpos.ne'), Nat.pow_add,
    show m.log2 + k + 1 = m.log2 + 1 + k by omega, Nat.pow_add]
  exact ⟨Nat.mul_le_mul_right _ (Nat.log2_self_le hm),
    Nat.mul_lt_mul_of_pos_right Nat.lt_log2_self hpos⟩

/-- A positive number rounds to its nearest bits. -/
theorem round_eq (sign : Sign) (hm : m ≠ 0) :
    UnpackedFloat.round .binary64 sign m 0 =
      .finite sign (nearestBits m).2 (nearestBits m).1
        (Nat.lt_of_lt_of_le (Nat.two_pow_pos 52) (nearestBits_bounds hm).1) := by
  have hshift : shiftToTargetExponent .binary64 (m <<< (52 - m.log2)) (-(52 - m.log2 : Nat))
      .exact = (leadingBits m, (m.log2 : Int) - 52) := by
    rw [shiftToTargetExponent_eq (by rw [log2_shiftLeft hm]; omega), log2_shiftLeft hm,
      show m.log2 + (52 - m.log2) - 52 = m.log2 - 52 by omega, leadingBits,
      show -((52 - m.log2 : Nat) : Int) + (m.log2 - 52 : Nat) = (m.log2 : Int) - 52 by omega]
  have hpositive := (nearestBits_bounds hm).1
  rw [UnpackedFloat.round, totalExponent, targetExponent_eq (by omega), decreaseExponent]
  simp only [show ((0 : Int) - (m.log2 + 1 + 0 - 53)).toNat = 52 - m.log2 by omega,
    show (0 : Int) - (52 - m.log2 : Nat) = -(52 - m.log2 : Nat) by omega]
  exact roundWithAccuracy_eq (by simp only; omega) hshift (shiftToTargetExponent_roundedBits hm)

/-- The bits of a mantissa without the highest one, and that one before them. -/
theorem toNat_one_append {bits : Nat} (hlow : 2 ^ 52 ≤ bits) (hhigh : bits < 2 ^ 53) :
    (1#1 ++ BitVec.ofNat 52 bits).toNat = bits := by
  rw [BitVec.toNat_append, BitVec.toNat_ofNat, BitVec.toNat_ofNat, Nat.shiftLeft_eq,
    Nat.mul_comm, ← Nat.two_pow_add_eq_or_of_lt (Nat.mod_lt _ (Nat.two_pow_pos 52))]
  omega

/-- A mantissa of 53 bits survives being packed, if its exponent is in range. -/
theorem unpack_pack (sign : Sign) {bits : Nat} {exponent : Int} (hlow : 2 ^ 52 ≤ bits)
    (hhigh : bits < 2 ^ 53) (hmin : -1074 ≤ exponent) (hmax : exponent ≤ 971)
    (hpos : 0 < bits) :
    (Float.Model.pack (.finite sign bits exponent hpos)).unpack =
      .finite sign bits exponent hpos := by
  have hlog : bits.log2 = 52 := (Nat.log2_eq_iff (by omega)).mpr ⟨hlow, hhigh⟩
  obtain ⟨biased, hbiased⟩ : ∃ biased : Nat, exponent = biased - 1075 :=
    ⟨(exponent + 1075).toNat, by omega⟩
  have hpack : UnpackedFloat.pack .binary64 (.finite sign bits exponent hpos) =
      packComponents .binary64 sign (BitVec.ofNat 11 biased) (BitVec.ofNat 52 bits) := by
    have hbias : Format.binary64.exponentBias = 1023 := rfl
    have hfield : (exponent + (1023 : Nat) + (52 : Nat)).toNat = biased := by omega
    rw [UnpackedFloat.pack]
    simp only [hbias, hfield, hlog]
    rw [if_neg (by omega)]
    exact if_pos rfl
  have hmin' : BitVec.ofNat 11 biased ≠ 0#11 := by
    simp only [ne_eq, ← BitVec.toNat_inj, BitVec.toNat_ofNat]
    omega
  have hmax' : BitVec.ofNat 11 biased ≠ -1#11 := by
    simp only [ne_eq, ← BitVec.toNat_inj, BitVec.toNat_ofNat, BitVec.toNat_neg]
    omega
  have hexp : ((BitVec.ofNat 11 biased).toNat : Int) -
      (Format.binary64.exponentBias + (52 : Nat)) = exponent := by
    rw [show Format.binary64.exponentBias = 1023 from rfl, BitVec.toNat_ofNat]
    omega
  rw [Float.Model.unpack, Float.Model.pack]
  simp only [hpack, UnpackedFloat.unpack, unpackExponent_packComponents,
    unpackMantissa_packComponents, unpackSign_packComponents, Sign.ofBitVec_toBitVec,
    hmin', hmax', hexp, toNat_one_append hlow hhigh, if_false]

end

/-! ## Integers -/

/-- The place of the float nearest to an integer. -/
def integerRank (n : Int) : FloatRank :=
  if n < 0 then (-1, -(nearestBits n.natAbs).1, -(nearestBits n.natAbs).2)
  else if n = 0 then (0, 0, 0)
  else (1, (nearestBits n.natAbs).1, (nearestBits n.natAbs).2)

theorem unpack_pack_round (sign : Sign) {m : Nat} (hm : m ≠ 0) (hrange : m ≤ 2 ^ 63) :
    (Float.Model.pack (UnpackedFloat.round .binary64 sign m 0)).unpack =
      UnpackedFloat.round .binary64 sign m 0 := by
  have hlog : m.log2 < 64 := (Nat.log2_lt hm).mpr (by omega)
  have hexp := nearestBits_exponent m
  rw [round_eq sign hm]
  exact unpack_pack sign (nearestBits_bounds hm).1 (nearestBits_bounds hm).2 (by omega)
    (by omega) _

/-- **The float nearest to an integer has a place**: that of the rounded integer. -/
theorem floatRank?_nearestFloat (n : Int64) :
    floatRank? (nearestFloat n) = some (integerRank n.toInt) := by
  have hlow := n.le_toInt
  have hhigh := n.toInt_lt
  change unpackedRank? (Float.Model.pack (UnpackedFloat.normalize .binary64 n.toInt 0
    .positive)).unpack = _
  generalize n.toInt = n at *
  rw [UnpackedFloat.normalize, integerRank]
  rcases Int.lt_trichotomy n 0 with hlt | rfl | hgt
  · simp only [Int.compare_eq_lt.mpr hlt, if_pos hlt,
      show (-n).toNat = n.natAbs by omega]
    rw [unpack_pack_round _ (by omega) (by omega), round_eq _ (by omega)]
    rfl
  · rfl
  · simp only [Int.compare_eq_gt.mpr hgt, if_neg (show ¬ n < 0 by omega), if_neg hgt.ne',
      show n.toNat = n.natAbs by omega]
    rw [unpack_pack_round _ (by omega) (by omega), round_eq _ (by omega)]
    rfl

/-- **Rounding to floats keeps the order of integers.** -/
theorem integerRank_mono {m n : Int} (h : m ≤ n) :
    (integerRank m).compare (integerRank n) ≠ .gt := by
  rw [FloatRank.compare_ne_gt_iff, integerRank, integerRank]
  rcases Int.lt_trichotomy m 0 with hm | rfl | hm
  · rcases Int.lt_trichotomy n 0 with hn | rfl | hn
    · -- below zero the places are mirrored
      have := nearestBits_mono (m := n.natAbs) (n := m.natAbs) (by omega) (by omega)
      simp only [if_pos hm, if_pos hn, true_and]
      omega
    · simp [hm]
    · simp only [if_pos hm, if_neg hn.not_gt, if_neg hn.ne']
      omega
  · rcases h.eq_or_lt with rfl | hn
    · simp
    · simp [hn.not_gt, hn.ne']
  · have hn : 0 < n := hm.trans_le h
    have := nearestBits_mono (m := m.natAbs) (n := n.natAbs) (by omega) (by omega)
    simp only [if_neg hm.not_gt, if_neg hm.ne', if_neg hn.not_gt, if_neg hn.ne', true_and]
    omega

end GraphPath
