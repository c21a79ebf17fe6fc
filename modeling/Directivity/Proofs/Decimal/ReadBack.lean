import Directivity.Decimal.Layout
import Directivity.Proofs.Arithmetic
import Mathlib.Algebra.Group.Basic
import Mathlib.Algebra.GroupWithZero.Nat
import Mathlib.Data.List.TakeWhile

/-!
Numerals read back as the number of which they are the text.

Reading a decimal sees its value: zeros may be moved from the coefficient into the exponent. The
shortest decimal of a number is chosen among those that read back, and whatever is chosen in their
absence has the exact value of the number. A layout moves the point and adds or leaves out zeros,
and nothing else.
-/

set_option autoImplicit false
set_option relaxedAutoImplicit false

namespace Directivity

theorem toDigits_mul_ten_pow {n : Nat} (positive : 0 < n) (zeros : Nat) :
    Nat.toDigits 10 (n * 10 ^ zeros) = Nat.toDigits 10 n ++ List.replicate zeros '0' := by
  induction zeros with
  | zero => simp
  | succ zeros ih =>
    have longer := Nat.toDigits_append_toDigits (b := 10) (n := n * 10 ^ zeros) (d := 0) (by omega)
      (Nat.mul_pos positive (Nat.pow_pos (by omega))) (by omega)
    rw [Nat.pow_succ, ← Nat.mul_assoc, Nat.mul_comm _ 10, ← Nat.add_zero (10 * _), ← longer, ih,
      Nat.toDigits_zero, List.append_assoc, ← List.replicate_succ']

theorem digitCount_mul_ten_pow {n : Nat} (positive : 0 < n) (zeros : Nat) :
    digitCount (n * 10 ^ zeros) = digitCount n + zeros := by
  rw [digitCount, toDigits_mul_ten_pow positive, List.length_append, List.length_replicate, digitCount]

theorem Binary64.nearestMagnitude_eq_of_mul_eq {num den num' den' : Nat} (positive : 0 < den)
    (positive' : 0 < den') (same : num * den' = num' * den) :
    nearestMagnitude num den = nearestMagnitude num' den' := by
  rw [← nearestMagnitude_mul_mul num den positive', ← nearestMagnitude_mul_mul num' den' positive,
    same, Nat.mul_comm den]

namespace Decimal

def extend (d : Decimal) (zeros : Nat) : Decimal :=
  ⟨d.coefficient * 10 ^ zeros, d.exponent - zeros⟩

theorem point_extend {d : Decimal} (nonzero : d.coefficient ≠ 0) (zeros : Nat) :
    (d.extend zeros).point = d.point := by
  simp only [extend, point, digitCount_mul_ten_pow (Nat.pos_of_ne_zero nonzero)]
  omega

theorem toBinary64_of_zero {d : Decimal} (zero : d.coefficient = 0) (negative : Bool) :
    d.toBinary64 negative = .ofMagnitude negative 0 := by
  rw [toBinary64, if_pos (.inl zero)]

private theorem ratio_extend (coefficient zeros one : Nat) (e : Int) :
    coefficient * 10 ^ zeros * 10 ^ (e - zeros).toNat * one * 10 ^ (-e).toNat =
      coefficient * 10 ^ e.toNat * one * 10 ^ (-(e - zeros)).toNat := by
  have exponents : zeros + (e - zeros).toNat + (-e).toNat = e.toNat + (-(e - zeros)).toNat := by
    omega
  calc coefficient * 10 ^ zeros * 10 ^ (e - zeros).toNat * one * 10 ^ (-e).toNat
      = coefficient * one * 10 ^ (zeros + (e - zeros).toNat + (-e).toNat) := by
        rw [Nat.pow_add, Nat.pow_add]
        ac_rfl
    _ = coefficient * 10 ^ e.toNat * one * 10 ^ (-(e - zeros)).toNat := by
        rw [exponents, Nat.pow_add]
        ac_rfl

theorem toBinary64_extend (d : Decimal) (zeros : Nat) (negative : Bool) :
    (d.extend zeros).toBinary64 negative = d.toBinary64 negative := by
  by_cases zero : d.coefficient = 0
  · rw [toBinary64_of_zero zero, toBinary64_of_zero (by simp [extend, zero])]
  · have nonzero : (d.extend zeros).coefficient ≠ 0 :=
      Nat.mul_ne_zero zero (Nat.pow_pos (by omega)).ne'
    have rounded := Binary64.nearestMagnitude_eq_of_mul_eq
      (Nat.pow_pos (n := (-(d.exponent - zeros)).toNat) (show 0 < 10 by omega))
      (Nat.pow_pos (n := (-d.exponent).toNat) (show 0 < 10 by omega))
      (ratio_extend d.coefficient zeros Binary64.oneUnits d.exponent)
    simp only [toBinary64, point_extend zero, nonzero, zero, false_or]
    split_ifs
    · rfl
    · rfl
    · exact congrArg (Binary64.ofMagnitude negative) rounded

theorem exists_significant (d : Decimal) :
    ∃ zeros, Nat.toDigits 10 d.coefficient = d.significant ++ List.replicate zeros '0' := by
  let reversed := (Nat.toDigits 10 d.coefficient).reverse
  have zeros : reversed.takeWhile (· == '0') =
      List.replicate (reversed.takeWhile (· == '0')).length '0' :=
    List.eq_replicate_iff.mpr ⟨rfl, fun c member => by simpa using List.mem_takeWhile_imp member⟩
  refine ⟨(reversed.takeWhile (· == '0')).length, ?_⟩
  calc Nat.toDigits 10 d.coefficient
      = (reversed.takeWhile (· == '0') ++ reversed.dropWhile (· == '0')).reverse := by
        rw [List.takeWhile_append_dropWhile, List.reverse_reverse]
    _ = d.significant ++ List.replicate (reversed.takeWhile (· == '0')).length '0' := by
        rw [List.reverse_append, zeros, List.reverse_replicate, List.length_replicate]
        rfl

theorem toBinary64_significant (d : Decimal) (negative : Bool) :
    (⟨Nat.ofDigitChars 10 d.significant 0, d.point - d.significant.length⟩ : Decimal).toBinary64
      negative = d.toBinary64 negative := by
  obtain ⟨zeros, digits⟩ := d.exists_significant
  have value : Nat.ofDigitChars 10 d.significant 0 * 10 ^ zeros = d.coefficient := by
    have whole := Nat.ofDigitChars_ten_toDigits (n := d.coefficient)
    rwa [digits, Nat.ofDigitChars_append, Nat.ofDigitChars_replicate_zero, Nat.mul_comm] at whole
  have place : d.point - d.significant.length - zeros = d.exponent := by
    rw [point, digitCount, digits, List.length_append, List.length_replicate]
    omega
  rw [← toBinary64_extend _ zeros, extend, value, place]

end Decimal

namespace Numeral

open Decimal

theorem decimal_positional (negative wholeMark : Bool) (digits : List Char) (point : Int) :
    ∃ zeros, (positional negative wholeMark digits point).decimal =
      (⟨Nat.ofDigitChars 10 digits 0, point - digits.length⟩ : Decimal).extend zeros := by
  unfold positional
  dsimp only
  split_ifs with small long mark
  · refine ⟨0, ?_⟩
    simp only [decimal, extend, List.singleton_append, Nat.ofDigitChars_cons, Nat.ofDigitChars_append,
      Nat.ofDigitChars_replicate_zero, List.length_append, List.length_replicate, Option.getD_none]
    congr 1
    · simp
    · omega
  · refine ⟨point.toNat - digits.length + 1, ?_⟩
    simp only [decimal, extend, Nat.ofDigitChars_append, Nat.ofDigitChars_replicate_zero,
      Nat.ofDigitChars_cons, Nat.ofDigitChars_nil, Option.getD_none, List.length_singleton]
    congr 1
    · rw [Nat.pow_succ]
      show 10 * _ + 0 = _
      ac_rfl
    · omega
  · refine ⟨point.toNat - digits.length, ?_⟩
    simp only [decimal, extend, Nat.ofDigitChars_append, Nat.ofDigitChars_replicate_zero,
      Nat.ofDigitChars_nil, Option.getD_none, List.length_nil]
    congr 1
    · exact Nat.mul_comm _ _
    · omega
  · refine ⟨0, ?_⟩
    simp only [decimal, extend, List.take_append_drop, Option.getD_none, List.length_drop]
    congr 1
    · simp
    · omega

theorem toBinary64_positional (negative wholeMark : Bool) (digits : List Char) (point : Int) :
    (positional negative wholeMark digits point).toBinary64 =
      (⟨Nat.ofDigitChars 10 digits 0, point - digits.length⟩ : Decimal).toBinary64 negative := by
  have sign : (positional negative wholeMark digits point).negative = negative := by
    unfold positional
    dsimp only
    split_ifs <;> rfl
  obtain ⟨zeros, same⟩ := decimal_positional negative wholeMark digits point
  rw [toBinary64, same, toBinary64_extend, sign]

theorem toBinary64_scientific (negative : Bool) (digits : List Char) (point : Int) :
    (scientific negative digits point).toBinary64 =
      (⟨Nat.ofDigitChars 10 digits 0, point - digits.length⟩ : Decimal).toBinary64 negative := by
  cases digits with
  | nil => rw [toBinary64, toBinary64_of_zero (by rfl), toBinary64_of_zero (by rfl)]; rfl
  | cons c digits =>
    rw [toBinary64]
    congr 1
    simp only [scientific, decimal, List.take_append_drop, Option.getD_some, List.length_drop,
      List.length_cons]
    congr 1
    omega

end Numeral

namespace Binary64

variable {x : Binary64}

theorem readsBack_of_decimalOf? {tie : Tie} {digits count : Nat} {d : Decimal}
    (found : x.decimalOf? tie digits count = some d) : x.readsBack d := by
  unfold decimalOf? at found
  dsimp only at found
  split_ifs at found with lower upper upper
  · cases found
    simp_all
  · cases found
    exact lower
  · cases found
    exact upper

private theorem digitCount_bounds (part : Nat) {low high : Nat} (positive : 0 < low) (least : 10 ^ low ≤ part)
    (most : unitsOfMagnitude infiniteMagnitude * part < 10 ^ high) (finite : x.isFinite)
    (nonzero : ¬ x.isZero) :
    low < digitCount (x.units * part) ∧ digitCount (x.units * part) ≤ high := by
  have bounded : x.units ≤ unitsOfMagnitude infiniteMagnitude :=
    unitsOfMagnitude_mono (le_of_lt (by simpa [isFinite] using finite))
  have upper : x.units * part < 10 ^ high := (Nat.mul_le_mul_right part bounded).trans_lt most
  have lower : 10 ^ low ≤ x.units * part :=
    least.trans (Nat.le_mul_of_pos_left part (units_pos nonzero))
  have places : 0 < high := by
    by_contra none
    rw [Nat.eq_zero_of_not_pos none, Nat.pow_zero] at upper
    exact absurd ((Nat.pow_pos (by omega)).trans_le lower) (by omega)
  refine ⟨not_le.mp fun short => ?_, (Nat.length_toDigits_le_iff (by omega) places).mpr upper⟩
  exact lower.not_gt ((Nat.length_toDigits_le_iff (by omega) positive).mp short)

private theorem toBinary64_of_units (part places : Nat) (exactly : part * oneUnits = 10 ^ places)
    (finite : x.isFinite) (nonzero : ¬ x.isZero)
    (small : ¬ (⟨x.units * part, -places⟩ : Decimal).point < -330)
    (large : ¬ 310 < (⟨x.units * part, -places⟩ : Decimal).point) :
    (⟨x.units * part, -places⟩ : Decimal).toBinary64 x.isNegative = x := by
  have units := ofUnits_self (isNaN_eq_false_of_isFinite finite)
    (Nat.pow_pos (n := places) (show 0 < 10 by omega))
  have coefficient : x.units * part ≠ 0 := by
    refine Nat.mul_ne_zero (units_pos nonzero).ne' ?_
    rintro rfl
    exact (Nat.pow_pos (show 0 < 10 by omega)).ne' ((Nat.zero_mul oneUnits).symm.trans exactly).symm
  have none : (-(places : Int)).toNat = 0 := by omega
  have all : (- -(places : Int)).toNat = places := by omega
  rw [Decimal.toBinary64, if_neg (not_or.mpr ⟨coefficient, small⟩), if_neg large]
  simp only [none, all]
  rw [show Nat.pow 10 0 = 1 from rfl, Nat.mul_one, Nat.mul_assoc, exactly]
  exact units

private theorem five_pow_mul_oneUnits : Nat.pow 5 1074 * oneUnits = 10 ^ 1074 := by decide +kernel

private theorem le_five_pow : 10 ^ 743 ≤ Nat.pow 5 1074 := by decide +kernel

private theorem mul_five_pow_lt :
    unitsOfMagnitude infiniteMagnitude * Nat.pow 5 1074 < 10 ^ 1384 := by decide +kernel

theorem toBinary64_exactDecimal (finite : x.isFinite) (nonzero : ¬ x.isZero) :
    x.exactDecimal.toBinary64 x.isNegative = x := by
  obtain ⟨lower, upper⟩ := digitCount_bounds (Nat.pow 5 1074) (by omega) le_five_pow mul_five_pow_lt
    finite nonzero
  refine toBinary64_of_units (Nat.pow 5 1074) 1074 five_pow_mul_oneUnits finite nonzero ?_ ?_
  · simp only [Decimal.point]
    omega
  · simp only [Decimal.point]
    omega

/-- The shortest decimal of a number reads back as the number. -/
theorem toBinary64_shortest (tie : Tie) (finite : x.isFinite) :
    (x.shortest tie).toBinary64 x.isNegative = x := by
  rw [shortest]
  split_ifs with zero
  · rw [Decimal.toBinary64_of_zero rfl]
    conv_rhs => rw [← ofMagnitude_self x, beq_iff_eq.mp zero]
  · dsimp only
    cases found : (List.range' 1 17).findSome? (x.decimalOf? tie (digitCount x.decimalUnits)) with
    | none => exact toBinary64_exactDecimal finite zero
    | some d =>
      obtain ⟨count, -, here⟩ := List.exists_of_findSome?_eq_some found
      exact beq_iff_eq.mp (readsBack_of_decimalOf? here)

theorem toBinary64_numeral (layout : Layout) (finite : x.isFinite) :
    (layout.numeral x).toBinary64 = x := by
  have digits := Decimal.toBinary64_significant (x.shortest layout.tie) x.isNegative
  rw [toBinary64_shortest layout.tie finite] at digits
  unfold Layout.numeral
  dsimp only
  split_ifs
  · rw [Numeral.toBinary64_positional, digits]
  · rw [Numeral.toBinary64_scientific, digits]

end Binary64

end Directivity
