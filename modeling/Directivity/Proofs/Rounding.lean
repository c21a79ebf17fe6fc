import Directivity.Binary64.Arithmetic
import Mathlib.Algebra.Group.Nat.Defs
import Mathlib.Order.Nat
import Mathlib.Tactic.SplitIfs

set_option autoImplicit false
set_option relaxedAutoImplicit false

namespace Directivity

theorem div_le_roundHalfEven (num den : Nat) : num / den ≤ roundHalfEven num den := by
  simp only [roundHalfEven]
  split_ifs <;> omega

theorem roundHalfEven_le_succ (num den : Nat) : roundHalfEven num den ≤ num / den + 1 := by
  simp only [roundHalfEven]
  split_ifs <;> omega

theorem roundHalfEven_mul (k : Nat) {den : Nat} (positive : 0 < den) :
    roundHalfEven (k * den) den = k := by
  simp [roundHalfEven, Nat.mul_div_cancel k positive, positive]

theorem roundHalfEven_mono {num num' : Nat} (den : Nat) (le : num ≤ num') :
    roundHalfEven num den ≤ roundHalfEven num' den := by
  rcases Nat.lt_or_eq_of_le (Nat.div_le_div_right (c := den) le) with less | same
  · exact (roundHalfEven_le_succ num den).trans
      (Nat.le_trans less (div_le_roundHalfEven num' den))
  · have rest : num % den ≤ num' % den := by
      have left := Nat.div_add_mod num den
      have right := Nat.div_add_mod num' den
      rw [same] at left
      omega
    simp only [roundHalfEven, same]
    split_ifs <;> omega

theorem roundHalfEven_mul_mul (num den : Nat) {k : Nat} (positive : 0 < k) :
    roundHalfEven (num * k) (den * k) = roundHalfEven num den := by
  have less : ∀ a b : Nat, a * k < b * k ↔ a < b := fun _ _ => Nat.mul_lt_mul_right positive
  have same : ∀ a b : Nat, a * k = b * k ↔ a = b := fun _ _ => Nat.mul_left_inj positive.ne'
  simp only [roundHalfEven, Nat.mul_div_mul_right num den positive, Nat.mul_mod_mul_right,
    ← Nat.mul_assoc, less, same]

namespace Binary64

/-- The digits of a quotient that fall behind the last binary digit of a fraction. -/
def excess (num den : Nat) : Nat :=
  (num / den).log2 - 52

theorem nearestMagnitude_eq (num den : Nat) :
    nearestMagnitude num den =
      min (excess num den * hiddenWeight + roundHalfEven num (den <<< excess num den))
        infiniteMagnitude := rfl

theorem excess_mono {num num' : Nat} (den : Nat) (le : num ≤ num') :
    excess num den ≤ excess num' den := by
  unfold excess
  rcases Nat.eq_zero_or_pos (num / den) with zero | positive
  · simp [zero]
  · have quotients : num / den ≤ num' / den := Nat.div_le_div_right le
    have power := (Nat.log2_self_le positive.ne').trans quotients
    have logs := (Nat.le_log2 (positive.trans_le quotients).ne').mpr power
    omega

theorem lt_of_excess (num : Nat) {den : Nat} (positive : 0 < den) :
    num < 2 * hiddenWeight * (den <<< excess num den) := by
  have quotient : num / den < 2 ^ (excess num den + 53) := by
    refine (Nat.lt_log2_self).trans_le (Nat.pow_le_pow_right (by omega) ?_)
    unfold excess
    omega
  have less := (Nat.div_lt_iff_lt_mul positive).mp quotient
  rw [Nat.pow_add] at less
  rw [Nat.shiftLeft_eq, show 2 * hiddenWeight = 2 ^ 53 from rfl]
  calc num < 2 ^ excess num den * 2 ^ 53 * den := less
    _ = 2 ^ 53 * (den * 2 ^ excess num den) := by ac_rfl

theorem le_of_excess_ne_zero {num den : Nat} (scaled : excess num den ≠ 0) :
    hiddenWeight * (den <<< excess num den) ≤ num := by
  have log : (num / den).log2 = 52 + excess num den := by
    unfold excess at scaled ⊢
    omega
  have positive : num / den ≠ 0 := by
    intro zero
    simp [excess, zero] at scaled
  have power := Nat.log2_self_le positive
  rw [log, Nat.pow_add] at power
  rw [Nat.shiftLeft_eq, show hiddenWeight = 2 ^ 52 from rfl]
  calc 2 ^ 52 * (den * 2 ^ excess num den) = den * (2 ^ 52 * 2 ^ excess num den) := by ac_rfl
    _ ≤ den * (num / den) := Nat.mul_le_mul_left den power
    _ ≤ num := Nat.mul_div_le num den

/-- Rounding sees a quotient and not its terms. -/
theorem nearestMagnitude_mul_mul (num den : Nat) {k : Nat} (positive : 0 < k) :
    nearestMagnitude (num * k) (den * k) = nearestMagnitude num den := by
  have same : excess (num * k) (den * k) = excess num den := by
    rw [excess, excess, Nat.mul_div_mul_right num den positive]
  have shifted : (den * k) <<< excess num den = (den <<< excess num den) * k := by
    rw [Nat.shiftLeft_eq, Nat.shiftLeft_eq, Nat.mul_right_comm]
  rw [nearestMagnitude_eq, nearestMagnitude_eq, same, shifted, roundHalfEven_mul_mul _ _ positive]

theorem nearestMagnitude_mono {num num' den : Nat} (positive : 0 < den) (le : num ≤ num') :
    nearestMagnitude num den ≤ nearestMagnitude num' den := by
  rw [nearestMagnitude_eq, nearestMagnitude_eq]
  refine Nat.le_min.mpr ⟨(Nat.min_le_left _ _).trans ?_, Nat.min_le_right _ _⟩
  rcases Nat.lt_or_eq_of_le (excess_mono den le) with less | same
  · have shifted : ∀ n, 0 < den <<< n := fun n => by
      rw [Nat.shiftLeft_eq]
      exact Nat.mul_pos positive (Nat.two_pow_pos n)
    have below : roundHalfEven num (den <<< excess num den) ≤ 2 * hiddenWeight := by
      rw [← roundHalfEven_mul (2 * hiddenWeight) (shifted (excess num den))]
      exact roundHalfEven_mono _ (lt_of_excess num positive).le
    have above : hiddenWeight ≤ roundHalfEven num' (den <<< excess num' den) := by
      rw [← roundHalfEven_mul hiddenWeight (shifted (excess num' den))]
      exact roundHalfEven_mono _ (le_of_excess_ne_zero (by omega))
    unfold hiddenWeight at *
    omega
  · rw [same]
    exact Nat.add_le_add_left (roundHalfEven_mono _ le) _

private def unitsAt (scale fraction : Nat) : Nat :=
  if scale = 0 then fraction else (hiddenWeight + fraction) * 2 ^ (scale - 1)

private theorem unitsOfMagnitude_eq (m : Nat) :
    unitsOfMagnitude m = unitsAt (m / hiddenWeight) (m % hiddenWeight) := by
  simp only [unitsOfMagnitude, unitsAt, Nat.shiftLeft_eq]

private theorem unitsAt_le_of_scale_lt {scale scale' fraction : Nat} (less : scale < scale')
    (part : fraction < hiddenWeight) (fraction' : Nat) :
    unitsAt scale fraction ≤ unitsAt scale' fraction' := by
  -- One scale further up, the hidden bit alone outweighs any fraction.
  have least : hiddenWeight * 2 ^ (scale' - 1) ≤ unitsAt scale' fraction' := by
    rw [unitsAt, if_neg (Nat.ne_zero_of_lt less)]
    exact Nat.mul_le_mul_right _ (Nat.le_add_right _ _)
  refine le_trans ?_ least
  unfold unitsAt
  split_ifs with subnormal
  · exact part.le.trans (Nat.le_mul_of_pos_right _ (Nat.two_pow_pos _))
  · calc (hiddenWeight + fraction) * 2 ^ (scale - 1)
        ≤ (hiddenWeight * 2) * 2 ^ (scale - 1) := Nat.mul_le_mul_right _ (by omega)
      _ = hiddenWeight * 2 ^ (scale - 1 + 1) := by
          rw [Nat.pow_succ, Nat.mul_assoc, Nat.mul_comm 2]
      _ ≤ hiddenWeight * 2 ^ (scale' - 1) :=
          Nat.mul_le_mul_left _ (Nat.pow_le_pow_right (by omega) (by omega))

theorem unitsOfMagnitude_mono {m m' : Nat} (le : m ≤ m') :
    unitsOfMagnitude m ≤ unitsOfMagnitude m' := by
  rw [unitsOfMagnitude_eq, unitsOfMagnitude_eq]
  rcases Nat.lt_or_eq_of_le (Nat.div_le_div_right (c := hiddenWeight) le) with less | same
  · exact unitsAt_le_of_scale_lt less (Nat.mod_lt _ (by decide)) _
  · have fractions : m % hiddenWeight ≤ m' % hiddenWeight := by
      have split := Nat.div_add_mod m hiddenWeight
      have split' := Nat.div_add_mod m' hiddenWeight
      rw [same] at split
      omega
    rw [same]
    unfold unitsAt
    split_ifs
    · exact fractions
    · exact Nat.mul_le_mul_right _ (Nat.add_le_add_left fractions _)

private theorem log2_unitsAt {scale fraction : Nat} (part : fraction < hiddenWeight) :
    (unitsAt scale fraction).log2 - 52 = scale - 1 := by
  unfold unitsAt
  split_ifs with subnormal
  · have short : fraction.log2 < 52 ∨ fraction = 0 := by
      rcases Nat.eq_zero_or_pos fraction with zero | positive
      · exact .inr zero
      · exact .inl ((Nat.log2_lt positive.ne').mpr part)
    rcases short with short | rfl
    · omega
    · simp [subnormal]
  · have log : ((hiddenWeight + fraction) * 2 ^ (scale - 1)).log2 = 52 + (scale - 1) := by
      have positive : (hiddenWeight + fraction) * 2 ^ (scale - 1) ≠ 0 :=
        (Nat.mul_pos (Nat.add_pos_left (by decide) _) (Nat.two_pow_pos _)).ne'
      rw [Nat.log2_eq_iff positive, Nat.add_right_comm, Nat.pow_add, Nat.pow_add]
      refine ⟨Nat.mul_le_mul_right _ ?_, Nat.mul_lt_mul_of_pos_right ?_ (Nat.two_pow_pos _)⟩
      · unfold hiddenWeight
        omega
      · unfold hiddenWeight at *
        omega
    omega

theorem nearestMagnitude_units {m den : Nat} (finite : m ≤ infiniteMagnitude) (positive : 0 < den) :
    nearestMagnitude (unitsOfMagnitude m * den) den = m := by
  have part := Nat.mod_lt m (show 0 < hiddenWeight by decide)
  have scale : excess (unitsOfMagnitude m * den) den = m / hiddenWeight - 1 := by
    rw [excess, Nat.mul_div_cancel _ positive, unitsOfMagnitude_eq, log2_unitsAt part]
  have split := Nat.div_add_mod m hiddenWeight
  have shifted : 0 < den <<< (m / hiddenWeight - 1) := by
    rw [Nat.shiftLeft_eq]
    exact Nat.mul_pos positive (Nat.two_pow_pos _)
  have below : ∀ k, k = m → min k infiniteMagnitude = m := by
    rintro _ rfl
    exact Nat.min_eq_left finite
  rw [nearestMagnitude_eq, scale, unitsOfMagnitude_eq, unitsAt]
  apply below
  split_ifs with subnormal
  · simp only [subnormal, Nat.zero_sub, Nat.shiftLeft_zero, Nat.zero_mul, Nat.zero_add] at *
    rw [roundHalfEven_mul _ positive]
    omega
  · have hidden : (m / hiddenWeight - 1) * hiddenWeight + hiddenWeight =
        hiddenWeight * (m / hiddenWeight) := by
      rw [← Nat.succ_mul, Nat.succ_eq_add_one,
        Nat.sub_add_cancel (Nat.pos_of_ne_zero subnormal), Nat.mul_comm]
    rw [Nat.mul_assoc, Nat.mul_comm _ den, ← Nat.shiftLeft_eq, roundHalfEven_mul _ shifted,
      ← Nat.add_assoc, hidden]
    exact split

end Binary64

end Directivity
