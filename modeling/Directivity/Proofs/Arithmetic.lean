import Directivity.Proofs.Order
import Directivity.Proofs.Rounding

set_option autoImplicit false
set_option relaxedAutoImplicit false

namespace Directivity.Binary64

variable {x y : Binary64}

theorem magnitude_lt (x : Binary64) : x.magnitude < signWeight :=
  Nat.mod_lt _ (by decide)

private theorem toNat_bits_ofMagnitude (negative : Bool) {m : Nat} (bounded : m < signWeight) :
    (ofMagnitude negative m).bits.toNat = if negative then signWeight + m else m := by
  have inside : (if negative then signWeight + m else m) < 2 ^ 64 := by
    unfold signWeight at *
    split_ifs <;> omega
  exact UInt64.toNat_ofNat_of_lt' inside

theorem isNegative_ofMagnitude (negative : Bool) {m : Nat} (bounded : m < signWeight) :
    (ofMagnitude negative m).isNegative = negative := by
  rw [isNegative, toNat_bits_ofMagnitude negative bounded]
  cases negative
  · simpa using bounded
  · simp

theorem magnitude_ofMagnitude (negative : Bool) {m : Nat} (bounded : m < signWeight) :
    (ofMagnitude negative m).magnitude = m := by
  rw [magnitude, toNat_bits_ofMagnitude negative bounded]
  cases negative
  · exact Nat.mod_eq_of_lt bounded
  · exact (Nat.add_mod_left _ _).trans (Nat.mod_eq_of_lt bounded)

theorem ofMagnitude_self (x : Binary64) : ofMagnitude x.isNegative x.magnitude = x := by
  rw [ofMagnitude, ← toNat_bits]
  simp

theorem isNegative_neg (x : Binary64) : (-x).isNegative = !x.isNegative :=
  isNegative_ofMagnitude _ x.magnitude_lt

theorem magnitude_neg (x : Binary64) : (-x).magnitude = x.magnitude :=
  magnitude_ofMagnitude _ x.magnitude_lt

theorem signedUnits_neg (x : Binary64) : (-x).signedUnits = -x.signedUnits := by
  rw [signedUnits, signedUnits, units, magnitude_neg, isNegative_neg, ← units]
  cases x.isNegative <;> simp

theorem isFinite_neg : (-x).isFinite = x.isFinite := by
  rw [isFinite, isFinite, magnitude_neg]

theorem nearestMagnitude_le (num den : Nat) : nearestMagnitude num den ≤ infiniteMagnitude :=
  Nat.min_le_right _ _

private theorem nearestMagnitude_lt (num den : Nat) : nearestMagnitude num den < signWeight :=
  (nearestMagnitude_le num den).trans_lt (by decide)

theorem isNegative_ofUnits (negative : Bool) (num den : Nat) :
    (ofUnits negative num den).isNegative = negative :=
  isNegative_ofMagnitude negative (nearestMagnitude_lt num den)

theorem magnitude_ofUnits (negative : Bool) (num den : Nat) :
    (ofUnits negative num den).magnitude = nearestMagnitude num den :=
  magnitude_ofMagnitude negative (nearestMagnitude_lt num den)

theorem ofUnits_self {den : Nat} (notNaN : x.isNaN = false) (positive : 0 < den) :
    ofUnits x.isNegative (x.units * den) den = x := by
  have finite : x.magnitude ≤ infiniteMagnitude := by simpa [isNaN] using notNaN
  rw [ofUnits, units, nearestMagnitude_units finite positive, ofMagnitude_self]

theorem isNaN_nan : nan.isNaN = true := by decide

theorem mul_of_isNaN (undefined : x.isNaN ∨ y.isNaN) : x * y = nan := by
  have apart : comparable x y = false := by simpa [comparable, imp_iff_not_or] using undefined
  show mul x y = nan
  simp [mul, apart]

theorem add_of_isNaN (undefined : x.isNaN ∨ y.isNaN) : x + y = nan := by
  have apart : comparable x y = false := by simpa [comparable, imp_iff_not_or] using undefined
  show add x y = nan
  simp [add, apart]

theorem div_of_isNaN (undefined : x.isNaN ∨ y.isNaN) : x / y = nan := by
  have apart : comparable x y = false := by simpa [comparable, imp_iff_not_or] using undefined
  show div x y = nan
  simp [div, apart]

theorem sub_of_isNaN (undefined : x.isNaN) : x - y = nan :=
  add_of_isNaN (.inl undefined)

theorem isNaN_clamp (undefined : x.isNaN) (low high : Binary64) : (x.clamp low high).isNaN := by
  have notBelow : ¬ x < low := fun below => by simpa [comparable, undefined] using below.1
  have notAbove : ¬ high < x := fun above => by simpa [comparable, undefined] using above.1
  rwa [clamp, if_neg notBelow, if_neg notAbove]

theorem zero_eq : (0 : Binary64) = ⟨0⟩ := by decide +kernel

theorem units_one : (1 : Binary64).units = oneUnits := by decide +kernel

theorem isFinite_one : (1 : Binary64).isFinite = true := by decide +kernel

theorem isNaN_eq_false_of_isFinite (finite : x.isFinite) : x.isNaN = false := by
  simp only [isFinite, isNaN, decide_eq_true_eq, decide_eq_false_iff_not] at *
  omega

theorem isInfinite_eq_false_of_isFinite (finite : x.isFinite) : x.isInfinite = false := by
  simp only [isFinite, isInfinite, decide_eq_true_eq, beq_eq_false_iff_ne] at *
  omega

theorem isFinite_or_isInfinite (notNaN : x.isNaN = false) : x.isFinite ∨ x.isInfinite := by
  simp only [isFinite, isInfinite, isNaN, decide_eq_true_eq, beq_iff_eq,
    decide_eq_false_iff_not] at *
  omega

theorem nearestMagnitude_zero {den : Nat} (positive : 0 < den) : nearestMagnitude 0 den = 0 := by
  have rounded := nearestMagnitude_units (m := 0) (by decide) positive
  rwa [show unitsOfMagnitude 0 = 0 from rfl, Nat.zero_mul] at rounded

theorem nearestMagnitude_pos {num : Nat} (positive : 0 < num) : 0 < nearestMagnitude num 1 := by
  have least := nearestMagnitude_units (m := 1) (by decide) Nat.one_pos
  rw [show unitsOfMagnitude 1 * 1 = 1 from rfl] at least
  calc 0 < nearestMagnitude 1 1 := least ▸ Nat.one_pos
    _ ≤ nearestMagnitude num 1 := nearestMagnitude_mono Nat.one_pos positive

theorem ofUnits_zero {den : Nat} (positive : 0 < den) : ofUnits false 0 den = 0 := by
  rw [ofUnits, nearestMagnitude_zero positive, zero_eq]
  rfl

theorem oneUnits_pos : 0 < oneUnits := by decide +kernel

theorem mul_of_isFinite (hx : x.isFinite) (hy : y.isFinite) :
    x * y = ofUnits (x.isNegative != y.isNegative) (x.units * y.units) oneUnits := by
  show mul x y = _
  simp [mul, comparable, isNaN_eq_false_of_isFinite hx, isNaN_eq_false_of_isFinite hy,
    isInfinite_eq_false_of_isFinite hx, isInfinite_eq_false_of_isFinite hy]

theorem add_of_isFinite (hx : x.isFinite) (hy : y.isFinite) :
    x + y =
      if x.signedUnits + y.signedUnits = 0 then ofMagnitude (x.isNegative && y.isNegative) 0
      else ofUnits (decide (x.signedUnits + y.signedUnits < 0))
        (x.signedUnits + y.signedUnits).natAbs 1 := by
  show add x y = _
  simp [add, comparable, isNaN_eq_false_of_isFinite hx, isNaN_eq_false_of_isFinite hy,
    isInfinite_eq_false_of_isFinite hx, isInfinite_eq_false_of_isFinite hy]

theorem isNegative_one : (1 : Binary64).isNegative = false := by decide +kernel

theorem isNegative_zero : (0 : Binary64).isNegative = false := by decide +kernel

theorem isFinite_zero : (0 : Binary64).isFinite = true := by decide +kernel

theorem units_zero : (0 : Binary64).units = 0 := by decide +kernel

theorem units_pos (nonzero : ¬ x.isZero) : 0 < x.units := by
  have least : 1 ≤ x.magnitude :=
    Nat.one_le_iff_ne_zero.mpr fun zero => nonzero (beq_iff_eq.mpr zero)
  exact (show 0 < unitsOfMagnitude 1 by decide).trans_le (unitsOfMagnitude_mono least)

theorem mul_one_eq (x : Binary64) : x * 1 = if x.isNaN then nan else x := by
  split_ifs with undefined
  · exact mul_of_isNaN (.inl undefined)
  · rw [Bool.not_eq_true] at undefined
    rcases isFinite_or_isInfinite undefined with finite | infinite
    · rw [mul_of_isFinite finite isFinite_one, units_one, isNegative_one, Bool.bne_false]
      exact ofUnits_self undefined oneUnits_pos
    · have magnitude : x.magnitude = infiniteMagnitude := by simpa [isInfinite] using infinite
      have nonzero : x.isZero = false := by
        rw [isZero, magnitude]
        rfl
      have one : (1 : Binary64).isNaN = false := isNaN_eq_false_of_isFinite isFinite_one
      have one' : (1 : Binary64).isZero = false := by decide +kernel
      show mul x 1 = x
      simp only [mul, comparable, undefined, one, infinite, nonzero, one', isNegative_one,
        Bool.not_false, Bool.and_self, Bool.not_true, Bool.true_or, Bool.or_self, Bool.bne_false,
        Bool.false_eq_true, if_true, if_false]
      rw [← magnitude, ofMagnitude_self]

theorem mul_zero_eq (finite : x.isFinite) (plus : x.isNegative = false) : x * 0 = 0 := by
  rw [mul_of_isFinite finite isFinite_zero, units_zero, Nat.mul_zero, plus, isNegative_zero]
  exact ofUnits_zero oneUnits_pos

theorem zero_mul_eq (finite : x.isFinite) (plus : x.isNegative = false) : 0 * x = 0 := by
  rw [mul_of_isFinite isFinite_zero finite, units_zero, Nat.zero_mul, plus, isNegative_zero]
  exact ofUnits_zero oneUnits_pos

theorem not_isFinite_mul (infinite : ¬ x.isFinite) (y : Binary64) : ¬ (x * y).isFinite := by
  by_cases undefined : x.isNaN ∨ y.isNaN
  · rw [mul_of_isNaN undefined]
    decide
  · rw [not_or, Bool.not_eq_true, Bool.not_eq_true] at undefined
    have hx : x.isInfinite = true := (isFinite_or_isInfinite undefined.1).resolve_left infinite
    have large : ∀ negative, ¬ (ofMagnitude negative infiniteMagnitude).isFinite := by
      intro negative
      rw [isFinite, magnitude_ofMagnitude negative (by decide)]
      decide
    show ¬ (mul x y).isFinite
    simp only [mul, comparable, undefined, hx, Bool.not_false, Bool.and_self, Bool.not_true,
      Bool.true_or, Bool.false_eq_true, if_true, if_false]
    split_ifs
    · decide
    · exact large _

theorem mul_zero_of_not_isFinite (infinite : ¬ x.isFinite) : x * 0 = nan := by
  by_cases undefined : x.isNaN
  · exact mul_of_isNaN (.inl undefined)
  · rw [Bool.not_eq_true] at undefined
    have hx : x.isInfinite = true := (isFinite_or_isInfinite undefined).resolve_left infinite
    have zero : (0 : Binary64).isZero = true := by decide +kernel
    have defined : (0 : Binary64).isNaN = false := isNaN_eq_false_of_isFinite isFinite_zero
    show mul x 0 = nan
    simp only [mul, comparable, undefined, defined, hx, zero, Bool.not_false, Bool.and_self,
      Bool.not_true, Bool.true_or, Bool.or_true, Bool.false_eq_true, if_true, if_false]

/-- A result without a sign: `nan`, or a number whose sign bit is clear. -/
structure IsUnsigned (x : Binary64) : Prop where
  plus : x.isNegative = false
  eq_nan : x.isNaN → x = nan

theorem isUnsigned_nan : nan.IsUnsigned :=
  ⟨by decide, fun _ => rfl⟩

theorem isUnsigned_ofMagnitude {m : Nat} (bounded : m ≤ infiniteMagnitude) :
    (ofMagnitude false m).IsUnsigned := by
  have inside : m < signWeight := bounded.trans_lt (by decide)
  refine ⟨isNegative_ofMagnitude false inside, fun undefined => ?_⟩
  rw [isNaN, magnitude_ofMagnitude false inside, decide_eq_true_eq] at undefined
  exact absurd bounded undefined.not_ge

theorem isUnsigned_ofUnits (num den : Nat) : (ofUnits false num den).IsUnsigned :=
  isUnsigned_ofMagnitude (nearestMagnitude_le num den)

theorem isUnsigned_mul (hx : x.isNaN ∨ x.isNegative = false) (hy : y.isNegative = false) :
    (x * y).IsUnsigned := by
  by_cases undefined : x.isNaN ∨ y.isNaN
  · rw [mul_of_isNaN undefined]
    exact isUnsigned_nan
  · rw [not_or] at undefined
    have plus := hx.resolve_left undefined.1
    show (mul x y).IsUnsigned
    simp only [mul, plus, hy, bne_self_eq_false]
    split_ifs
    · exact isUnsigned_nan
    · exact isUnsigned_nan
    · exact isUnsigned_ofMagnitude (Nat.le_refl _)
    · exact isUnsigned_ofUnits _ _

theorem isUnsigned_div (hx : x.isNaN ∨ x.isNegative = false)
    (hy : y.isNaN ∨ y.isNegative = false) : (x / y).IsUnsigned := by
  by_cases undefined : x.isNaN ∨ y.isNaN
  · rw [div_of_isNaN undefined]
    exact isUnsigned_nan
  · rw [not_or] at undefined
    show (div x y).IsUnsigned
    simp only [div, hx.resolve_left undefined.1, hy.resolve_left undefined.2, bne_self_eq_false]
    split_ifs
    · exact isUnsigned_nan
    · exact isUnsigned_nan
    · exact isUnsigned_ofMagnitude (Nat.le_refl _)
    · exact isUnsigned_ofMagnitude (Nat.zero_le _)
    · exact isUnsigned_nan
    · exact isUnsigned_ofMagnitude (Nat.le_refl _)
    · exact isUnsigned_ofUnits _ _

theorem zero_div_eq (hy : y.isNaN ∨ y.isNegative = false) : 0 / y = nan ∨ 0 / y = 0 := by
  by_cases undefined : y.isNaN
  · exact .inl (div_of_isNaN (.inr undefined))
  · have zero : (0 : Binary64).isZero = true := by decide +kernel
    have finite : (0 : Binary64).isInfinite = false := isInfinite_eq_false_of_isFinite isFinite_zero
    show div 0 y = nan ∨ div 0 y = 0
    simp only [div, hy.resolve_left undefined, isNegative_zero, finite, zero, units_zero,
      bne_self_eq_false, Bool.false_eq_true, if_false, if_true, Nat.zero_mul]
    split_ifs with _ _ null
    · exact .inl rfl
    · exact .inr zero_eq.symm
    · exact .inl rfl
    · exact .inr (ofUnits_zero (units_pos null))

theorem IsUnsigned.signedUnits (hx : x.IsUnsigned) : x.signedUnits = x.units := by
  simp [Binary64.signedUnits, hx.plus]

theorem IsUnsigned.add (hx : x.IsUnsigned) (hy : y.IsUnsigned) : (x + y).IsUnsigned := by
  show (Binary64.add x y).IsUnsigned
  have sum : ¬ x.signedUnits + y.signedUnits < 0 := by
    rw [hx.signedUnits, hy.signedUnits]
    omega
  simp only [Binary64.add, hx.plus, hy.plus, sum, decide_false, bne_self_eq_false, Bool.and_false,
    Bool.false_eq_true, if_false]
  split_ifs
  · exact isUnsigned_nan
  · exact hx
  · exact hy
  · exact isUnsigned_ofMagnitude (Nat.zero_le _)
  · exact isUnsigned_ofUnits _ _

theorem IsUnsigned.add_zero (hx : x.IsUnsigned) : x + 0 = x := by
  cases undefined : x.isNaN
  · have value : x.signedUnits + (0 : Binary64).signedUnits = x.units := by
      rw [hx.signedUnits, Binary64.signedUnits, isNegative_zero, units_zero]
      simp
    have exact_x : ofUnits false x.units 1 = x := by
      have rounded := ofUnits_self undefined Nat.one_pos
      rwa [hx.plus, Nat.mul_one] at rounded
    rcases isFinite_or_isInfinite undefined with finite | infinite
    · rw [add_of_isFinite finite isFinite_zero, value, hx.plus, isNegative_zero]
      split_ifs with zero
      · rw [← exact_x, Int.natCast_eq_zero.mp zero, ofUnits_zero Nat.one_pos, zero_eq]
        rfl
      · have plus : decide ((x.units : Int) < 0) = false :=
          decide_eq_false (Int.not_lt.mpr (Int.natCast_nonneg _))
        rw [plus, Int.natAbs_natCast]
        exact exact_x
    · have zero : (0 : Binary64).isInfinite = false := isInfinite_eq_false_of_isFinite isFinite_zero
      have defined : (0 : Binary64).isNaN = false := isNaN_eq_false_of_isFinite isFinite_zero
      show Binary64.add x 0 = x
      simp [Binary64.add, comparable, undefined, infinite, zero, defined]
  · rw [hx.eq_nan undefined]
    exact add_of_isNaN (.inl isNaN_nan)

theorem IsUnsigned.mul_one (hx : x.IsUnsigned) : x * 1 = x := by
  rw [mul_one_eq]
  split_ifs with undefined
  · exact (hx.eq_nan undefined).symm
  · rfl

theorem mul_one_mul (x y : Binary64) : x * 1 * y = x * y := by
  rw [mul_one_eq]
  split_ifs with undefined
  · rw [mul_of_isNaN (.inl undefined), mul_of_isNaN (.inl isNaN_nan)]
  · rfl

/-- A number from `0` to `1`, without a sign. -/
structure IsWeight (w : Binary64) : Prop where
  plus : w.isNegative = false
  le_one : w.magnitude ≤ (1 : Binary64).magnitude

theorem isWeight_zero : IsWeight 0 :=
  ⟨isNegative_zero, by decide +kernel⟩

theorem isWeight_one : IsWeight 1 :=
  ⟨isNegative_one, Nat.le_refl _⟩

theorem isWeight_ofUnits {n : Nat} (le : n ≤ oneUnits) : IsWeight (ofUnits false n 1) := by
  refine ⟨isNegative_ofUnits _ _ _, ?_⟩
  have one : nearestMagnitude (oneUnits * 1) 1 = (1 : Binary64).magnitude := by
    have rounded := nearestMagnitude_units (m := (1 : Binary64).magnitude) (by decide +kernel)
      Nat.one_pos
    rwa [show unitsOfMagnitude (1 : Binary64).magnitude = oneUnits from units_one] at rounded
  rw [magnitude_ofUnits, ← one]
  exact nearestMagnitude_mono Nat.one_pos (le.trans (Nat.le_mul_of_pos_right _ Nat.one_pos))

namespace IsWeight

variable {w : Binary64}

theorem isFinite (weight : w.IsWeight) : w.isFinite := by
  have one := isFinite_one
  rw [Binary64.isFinite, decide_eq_true_eq] at one ⊢
  exact weight.le_one.trans_lt one

theorem units_le (weight : w.IsWeight) : w.units ≤ oneUnits := by
  rw [← units_one]
  exact unitsOfMagnitude_mono weight.le_one

theorem one_sub (weight : w.IsWeight) : IsWeight (1 - w) := by
  have sum : (1 : Binary64).signedUnits + (-w).signedUnits = (oneUnits - w.units : Nat) := by
    have le := weight.units_le
    rw [signedUnits_neg, signedUnits, signedUnits, isNegative_one, weight.plus, units_one,
      if_neg Bool.false_ne_true, if_neg Bool.false_ne_true]
    omega
  show IsWeight (1 + -w)
  rw [add_of_isFinite isFinite_one (isFinite_neg.trans weight.isFinite), sum, isNegative_one,
    Bool.false_and]
  split_ifs
  · exact isWeight_zero
  · have plus : decide (((oneUnits - w.units : Nat) : Int) < 0) = false :=
      decide_eq_false (Int.not_lt.mpr (Int.natCast_nonneg _))
    rw [plus, Int.natAbs_natCast]
    exact isWeight_ofUnits (Nat.sub_le _ _)

theorem isFinite_mul (weight : w.IsWeight) (finite : x.isFinite) : (x * w).isFinite := by
  have bounded : x.magnitude < infiniteMagnitude := by simpa [Binary64.isFinite] using finite
  rw [mul_of_isFinite finite weight.isFinite, Binary64.isFinite, magnitude_ofUnits,
    decide_eq_true_eq]
  calc nearestMagnitude (x.units * w.units) oneUnits
      ≤ nearestMagnitude (x.units * oneUnits) oneUnits :=
        nearestMagnitude_mono oneUnits_pos (Nat.mul_le_mul_left _ weight.units_le)
    _ = x.magnitude := nearestMagnitude_units bounded.le oneUnits_pos
    _ < infiniteMagnitude := bounded

end IsWeight

theorem one_sub_zero : (1 : Binary64) - 0 = 1 := by decide +kernel

end Directivity.Binary64
