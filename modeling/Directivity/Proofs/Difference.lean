import Directivity.Proofs.Arithmetic

set_option autoImplicit false
set_option relaxedAutoImplicit false

namespace Directivity.Binary64

variable {x y z x' y' : Binary64}

theorem not_lt_of_isNaN (undefined : x.isNaN ∨ y.isNaN) : ¬ x < y := by
  intro less
  have defined := less.1
  rcases undefined with undefined | undefined <;> simp [comparable, undefined] at defined

theorem isNaN_of_lt (less : x < y) : x.isNaN = false ∧ y.isNaN = false := by
  simpa [comparable] using less.1

theorem isNaN_of_le (le : x ≤ y) : x.isNaN = false ∧ y.isNaN = false := by
  simpa [comparable] using le.1

protected theorem le_of_not_lt (defined : comparable x y = true) (notLess : ¬ y < x) : x ≤ y := by
  have swapped : comparable y x = true := by rwa [comparable, Bool.and_comm]
  exact ⟨defined, not_lt.mp fun less => notLess ⟨swapped, less⟩⟩

protected theorem lt_of_not_le (defined : comparable x y = true) (notLe : ¬ x ≤ y) : y < x := by
  have swapped : comparable y x = true := by rwa [comparable, Bool.and_comm]
  exact ⟨swapped, not_le.mp fun le => notLe ⟨defined, le⟩⟩

protected theorem not_lt_of_le (le : x ≤ y) : ¬ y < x := fun less =>
  le.2.not_gt less.2

protected theorem lt_trans (left : x < y) (right : y < z) : x < z := by
  refine ⟨?_, left.2.trans right.2⟩
  simp [comparable, isNaN_of_lt left, isNaN_of_lt right]

protected theorem le_of_lt (less : x < y) : x ≤ y :=
  ⟨less.1, less.2.le⟩

protected theorem le_trans (left : x ≤ y) (right : y ≤ z) : x ≤ z := by
  refine ⟨?_, left.2.trans right.2⟩
  simp [comparable, isNaN_of_le left, isNaN_of_le right]

protected theorem lt_of_le_of_lt (left : x ≤ y) (right : y < z) : x < z := by
  refine ⟨?_, left.2.trans_lt right.2⟩
  simp [comparable, isNaN_of_le left, isNaN_of_lt right]

protected theorem lt_of_lt_of_le (left : x < y) (right : y ≤ z) : x < z := by
  refine ⟨?_, left.2.trans_le right.2⟩
  simp [comparable, isNaN_of_lt left, isNaN_of_le right]

theorem sameValue_of_le (le : x ≤ y) (ge : y ≤ x) : x.sameValue y := by
  simp [sameValue, le.1, le_antisymm le.2 ge.2]

theorem lt_iff_of_sameValue (same : y.sameValue z) : x < y ↔ x < z := by
  simp only [sameValue, comparable, Bool.and_eq_true, Bool.not_eq_true', beq_iff_eq] at same
  obtain ⟨⟨hy, hz⟩, rank⟩ := same
  show comparable x y = true ∧ _ < _ ↔ comparable x z = true ∧ _ < _
  rw [comparable, comparable, hy, hz, rank]

theorem natAbs_valueRank (x : Binary64) : x.valueRank.natAbs = x.magnitude := by
  unfold valueRank
  split_ifs <;> omega

theorem magnitude_eq_of_sameValue (same : x.sameValue y) : x.magnitude = y.magnitude := by
  simp only [sameValue, Bool.and_eq_true, beq_iff_eq] at same
  rw [← natAbs_valueRank x, same.2, natAbs_valueRank]

theorem lt_iff_of_sameValue_left (same : x.sameValue y) : x < z ↔ y < z := by
  simp only [sameValue, comparable, Bool.and_eq_true, Bool.not_eq_true', beq_iff_eq] at same
  obtain ⟨⟨hx, hy⟩, rank⟩ := same
  show comparable x z = true ∧ _ < _ ↔ comparable y z = true ∧ _ < _
  rw [comparable, comparable, hx, hy, rank]

theorem sameValue_self (defined : x.isNaN = false) : x.sameValue x := by
  simp [sameValue, comparable, defined]

theorem sameValue_of_isZero (hx : x.isZero) (hy : y.isZero) : x.sameValue y := by
  simp only [isZero, beq_iff_eq] at hx hy
  simp [sameValue, comparable, isNaN, valueRank, hx, hy]

theorem eq_or_isZero_of_sameValue (same : x.sameValue y) : x = y ∨ x.isZero ∧ y.isZero := by
  have magnitude := magnitude_eq_of_sameValue same
  by_cases sign : x.isNegative = y.isNegative
  · left
    rw [← ofMagnitude_self x, ← ofMagnitude_self y, sign, magnitude]
  · right
    have rank : x.valueRank = y.valueRank := by simp_all [sameValue]
    rw [valueRank, valueRank, Bool.eq_not.mpr sign, magnitude] at rank
    have zero : y.magnitude = 0 := by
      cases hy : y.isNegative with
      | false =>
        rw [hy, Bool.not_false, if_pos rfl, if_neg Bool.false_ne_true] at rank
        omega
      | true =>
        rw [hy, Bool.not_true, if_neg Bool.false_ne_true, if_pos rfl] at rank
        omega
    exact ⟨beq_iff_eq.mpr (magnitude.trans zero), beq_iff_eq.mpr zero⟩

instance : @Trans Binary64 Binary64 Binary64 (· < ·) (· < ·) (· < ·) :=
  ⟨Binary64.lt_trans⟩

instance : @Trans Binary64 Binary64 Binary64 (· ≤ ·) (· ≤ ·) (· ≤ ·) :=
  ⟨Binary64.le_trans⟩

theorem signedUnits_mono (le : x.valueRank ≤ y.valueRank) : x.signedUnits ≤ y.signedUnits := by
  have none : unitsOfMagnitude 0 = 0 := rfl
  simp only [valueRank, signedUnits, units] at le ⊢
  split_ifs at le ⊢
  · have larger : y.magnitude ≤ x.magnitude := by omega
    have units := unitsOfMagnitude_mono larger
    omega
  · omega
  · -- A number without a sign is at most one with a sign only where both are zero.
    have zero : x.magnitude = 0 ∧ y.magnitude = 0 := by omega
    rw [zero.1, zero.2, none]
    rfl
  · have larger : x.magnitude ≤ y.magnitude := by omega
    exact Int.ofNat_le.mpr (unitsOfMagnitude_mono larger)

theorem unitsOfMagnitude_lt {m m' : Nat} (less : m < m') (finite : m' ≤ infiniteMagnitude) :
    unitsOfMagnitude m < unitsOfMagnitude m' := by
  refine lt_of_le_of_ne (unitsOfMagnitude_mono less.le) fun same => less.ne ?_
  rw [← nearestMagnitude_units (less.le.trans finite) Nat.one_pos, same,
    nearestMagnitude_units finite Nat.one_pos]

theorem magnitude_le_of_isFinite (finite : x.isFinite) : x.magnitude ≤ infiniteMagnitude :=
  le_of_lt (by simpa [isFinite] using finite)

theorem signedUnits_lt (hx : x.isFinite) (hy : y.isFinite) (less : x.valueRank < y.valueRank) :
    x.signedUnits < y.signedUnits := by
  have bounded := magnitude_le_of_isFinite hx
  have bounded' := magnitude_le_of_isFinite hy
  have none : unitsOfMagnitude 0 = 0 := rfl
  simp only [valueRank, signedUnits, units] at less ⊢
  split_ifs at less ⊢
  · have smaller := unitsOfMagnitude_lt (show y.magnitude < x.magnitude by omega) bounded
    omega
  · -- The signs differ, so one of the numbers is not zero.
    rcases Nat.eq_zero_or_pos x.magnitude with zero | positive
    · have smaller := unitsOfMagnitude_lt (show 0 < y.magnitude by omega) bounded'
      omega
    · have smaller := unitsOfMagnitude_lt positive bounded
      omega
  · omega
  · exact Int.ofNat_lt.mpr (unitsOfMagnitude_lt (by omega) bounded')

theorem isFinite_of_between (hx : x.isFinite) (hz : z.isFinite) (left : x ≤ y) (right : y ≤ z) :
    y.isFinite := by
  have lower := left.2
  have upper := right.2
  simp only [isFinite, ← natAbs_valueRank, decide_eq_true_eq] at hx hz ⊢
  omega

theorem comparable_of_isFinite (hx : x.isFinite) (hy : y.isFinite) : comparable x y = true := by
  simp [comparable, isNaN_eq_false_of_isFinite hx, isNaN_eq_false_of_isFinite hy]

theorem not_lt_zero (plus : x.isNaN ∨ x.isNegative = false) : ¬ x < 0 := by
  intro less
  have plus := plus.resolve_left (Bool.eq_false_iff.mp (isNaN_of_lt less).1)
  have zero : (0 : Binary64).valueRank = 0 := by decide +kernel
  have rank := less.2
  rw [valueRank, plus, zero] at rank
  exact absurd rank (Int.natCast_nonneg x.magnitude).not_gt

theorem lt_iff_of_isFinite (hx : x.isFinite) (hy : y.isFinite) :
    x < y ↔ x.signedUnits < y.signedUnits := by
  refine ⟨fun less => signedUnits_lt hx hy less.2, fun less => ?_⟩
  refine ⟨comparable_of_isFinite hx hy, not_le.mp fun le => ?_⟩
  exact less.not_ge (signedUnits_mono le)

theorem le_iff_of_isFinite (hx : x.isFinite) (hy : y.isFinite) :
    x ≤ y ↔ x.signedUnits ≤ y.signedUnits := by
  refine ⟨fun le => signedUnits_mono le.2, fun le => ?_⟩
  exact Binary64.le_of_not_lt (comparable_of_isFinite hx hy) fun less =>
    le.not_gt ((lt_iff_of_isFinite hy hx).mp less)

theorem abs_of_magnitude_eq {m : Nat} (magnitude : x.magnitude = m) : x.abs = ofMagnitude false m := by
  rw [abs, magnitude]

/-- How far two finite numbers lie apart, as computed: exactly, but for one rounding. -/
theorem abs_sub_of_isFinite (hx : x.isFinite) (hy : y.isFinite) :
    (x - y).abs = ofUnits false (x.signedUnits - y.signedUnits).natAbs 1 := by
  show (x + -y).abs = _
  rw [add_of_isFinite hx (isFinite_neg.trans hy), signedUnits_neg, ← Int.sub_eq_add_neg]
  split_ifs with same
  · rw [same, Int.natAbs_zero, ofUnits_zero Nat.one_pos, zero_eq]
    exact abs_of_magnitude_eq (magnitude_ofMagnitude _ (by decide))
  · exact abs_of_magnitude_eq (magnitude_ofUnits _ _ _)

theorem abs_sub_of_isInfinite (hx : x.isFinite) (hy : y.isInfinite) : (x - y).abs = infinity := by
  have magnitude : y.magnitude = infiniteMagnitude := by simpa [isInfinite] using hy
  have defined : (-y).isNaN = false := by
    rw [isNaN, magnitude_neg, magnitude]
    rfl
  have infinite : (-y).isInfinite = true := by
    rw [isInfinite, magnitude_neg]
    exact hy
  have opposite : x - y = -y := by
    show add x (-y) = -y
    simp [add, comparable, isNaN_eq_false_of_isFinite hx, defined,
      isInfinite_eq_false_of_isFinite hx, infinite]
  rw [opposite, abs, magnitude_neg, magnitude]
  rfl

theorem abs_sub_of_sameValue (hx : x.isFinite) (same : y.sameValue z) :
    (x - y).abs = (x - z).abs := by
  have magnitude := magnitude_eq_of_sameValue same
  have defined : y.isNaN = false := by simp_all [sameValue, comparable]
  rcases isFinite_or_isInfinite defined with finite | infinite
  · have finite' : z.isFinite := by rwa [isFinite, ← magnitude]
    have rank : y.valueRank = z.valueRank := by simp_all [sameValue]
    rw [abs_sub_of_isFinite hx finite, abs_sub_of_isFinite hx finite',
      Int.le_antisymm (signedUnits_mono rank.le) (signedUnits_mono rank.ge)]
  · have infinite' : z.isInfinite := by rwa [isInfinite, ← magnitude]
    rw [abs_sub_of_isInfinite hx infinite, abs_sub_of_isInfinite hx infinite']

theorem abs_sub_of_sameValue_left (hx : x.isFinite) (hy : y.isFinite) (same : x.sameValue y) :
    (x - z).abs = (y - z).abs := by
  have rank : x.valueRank = y.valueRank := by simp_all [sameValue]
  have units := Int.le_antisymm (signedUnits_mono rank.le) (signedUnits_mono rank.ge)
  cases undefined : z.isNaN with
  | true =>
    have opposite : (-z).isNaN := by rwa [isNaN, magnitude_neg, ← isNaN]
    have nothing : ∀ w : Binary64, w - z = nan := fun w => add_of_isNaN (.inr opposite)
    rw [nothing, nothing]
  | false =>
    rcases isFinite_or_isInfinite undefined with finite | infinite
    · rw [abs_sub_of_isFinite hx finite, abs_sub_of_isFinite hy finite, units]
    · rw [abs_sub_of_isInfinite hx infinite, abs_sub_of_isInfinite hy infinite]

private theorem isNaN_ofUnits (num : Nat) : (ofUnits false num 1).isNaN = false := by
  rw [isNaN, magnitude_ofUnits, decide_eq_false_iff_not]
  exact (nearestMagnitude_le num 1).not_gt

private theorem valueRank_ofUnits (num : Nat) :
    (ofUnits false num 1).valueRank = nearestMagnitude num 1 := by
  rw [valueRank, isNegative_ofUnits, magnitude_ofUnits]
  rfl

private theorem ofUnits_le_ofUnits {num num' : Nat} (le : num ≤ num') :
    ofUnits false num 1 ≤ ofUnits false num' 1 := by
  refine ⟨by simp [comparable, isNaN_ofUnits], ?_⟩
  rw [valueRank_ofUnits, valueRank_ofUnits]
  exact Int.ofNat_le.mpr (nearestMagnitude_mono Nat.one_pos le)

theorem abs_sub_le_abs_sub (hx : x.isFinite) (hy : y.isFinite) (hx' : x'.isFinite)
    (hy' : y'.isFinite) (le : (x.signedUnits - y.signedUnits).natAbs ≤
      (x'.signedUnits - y'.signedUnits).natAbs) : (x - y).abs ≤ (x' - y').abs := by
  rw [abs_sub_of_isFinite hx hy, abs_sub_of_isFinite hx' hy']
  exact ofUnits_le_ofUnits le

/-- Different values have a difference, which no rounding takes away. -/
theorem abs_sub_lt_abs_sub (hx : x.isFinite) (hy : y.isFinite) (hx' : x'.isFinite)
    (hy' : y'.isFinite) (same : x.signedUnits = y.signedUnits)
    (apart : x'.signedUnits ≠ y'.signedUnits) : (x - y).abs < (x' - y').abs := by
  rw [abs_sub_of_isFinite hx hy, abs_sub_of_isFinite hx' hy', same, Int.sub_self, Int.natAbs_zero]
  refine ⟨by simp [comparable, isNaN_ofUnits], ?_⟩
  rw [valueRank_ofUnits, valueRank_ofUnits, nearestMagnitude_zero Nat.one_pos]
  exact Int.ofNat_lt.mpr (nearestMagnitude_pos (by omega))

end Directivity.Binary64
