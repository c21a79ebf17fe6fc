import Directivity.Proofs.BandAxis.Ascending
import Directivity.Proofs.Search

/-!
The band that answers for a frequency.

A search parts the bands below a frequency from the others, and only the two bands at the cut are
compared. As the bands ascend and rounding keeps the order of differences, no band further away is
nearer than these. A frequency that is a band answers for itself, as its difference is the only
zero.
-/

set_option autoImplicit false
set_option relaxedAutoImplicit false

namespace Directivity

namespace BandAxis

variable {bands : List Binary64} {axis : BandAxis} {frequency : Binary64}

/-- How far a band lies from a frequency, as computed. -/
def gap (axis : BandAxis) (frequency : Binary64) (column : Fin axis.bands.size) : Binary64 :=
  (axis.band column - frequency).abs

def first (axis : BandAxis) : Fin axis.bands.size :=
  ⟨0, axis.nonempty⟩

def last (axis : BandAxis) : Fin axis.bands.size :=
  ⟨axis.bands.size - 1, Nat.sub_one_lt_of_lt axis.nonempty⟩

/-- The column before another; the first one stands before itself. -/
def before (axis : BandAxis) (column : Fin axis.bands.size) : Fin axis.bands.size :=
  ⟨column - 1, (Nat.sub_le _ _).trans_lt column.isLt⟩

theorem lt_iff_lt_cut (valid : ofList bands = .ok axis) (frequency : Binary64) :
    cut axis.bands (fun band => decide (band < frequency)) ≤ axis.bands.size ∧
      ∀ column : Fin axis.bands.size, axis.band column < frequency ↔
        column < cut axis.bands fun band => decide (band < frequency) := by
  have ascending : axis.bands.toList.Pairwise fun a b =>
      decide (b < frequency) → decide (a < frequency) := by
    rw [(eq_of_ofList valid).1]
    refine (pairwise_of_ofList valid).imp ?_
    simp only [decide_eq_true_eq]
    exact Binary64.lt_trans
  obtain ⟨inside, counted⟩ := holds_iff_lt_cut ascending
  exact ⟨inside, fun column => by simpa [band] using counted column column.isLt⟩

/-- The nearest column is one of two: that of the first band that is not below the frequency, or the
last one, and the column before. -/
theorem nearestColumn_eq (valid : ofList bands = .ok axis) (upper : Fin axis.bands.size)
    (below : ∀ column < upper, axis.band column < frequency)
    (above : ¬ axis.band upper < frequency ∨ upper = axis.last) :
    axis.nearestColumn frequency =
      if axis.gap frequency (axis.before upper) ≤ axis.gap frequency upper then axis.before upper
      else upper := by
  obtain ⟨inside, counted⟩ := lt_iff_lt_cut valid frequency
  have least : upper ≤ cut axis.bands fun band => decide (band < frequency) := by
    by_contra! early
    have here := below ⟨_, early.trans upper.isLt⟩ early
    exact (counted _).mp here |>.false
  have position : min (cut axis.bands fun band => decide (band < frequency))
      (axis.bands.size - 1) = upper := by
    rcases above with notBelow | rfl
    · have most := not_lt.mp fun later => notBelow ((counted upper).mpr later)
      omega
    · simp only [last] at least ⊢
      omega
  unfold nearestColumn
  simp only [position]
  rfl

theorem exists_first_not_below (valid : ofList bands = .ok axis)
    (below : frequency ≤ axis.band axis.last) :
    ∃ upper : Fin axis.bands.size, (∀ column < upper, axis.band column < frequency) ∧
      frequency ≤ axis.band upper := by
  obtain ⟨-, counted⟩ := lt_iff_lt_cut valid frequency
  have early : cut axis.bands (fun band => decide (band < frequency)) < axis.bands.size := by
    have notBelow : ¬ axis.last < cut axis.bands fun band => decide (band < frequency) :=
      fun later => Binary64.not_lt_of_le below ((counted axis.last).mpr later)
    have nonempty := axis.nonempty
    simp only [last] at notBelow
    omega
  refine ⟨⟨_, early⟩, fun column => (counted column).mpr, ?_⟩
  refine Binary64.le_of_not_lt ?_ fun less => ((counted _).mp less).false
  have defined := Binary64.isNaN_of_le below
  have band := Binary64.isNaN_eq_false_of_isFinite (isFinite_band valid ⟨_, early⟩)
  rw [Binary64.comparable, defined.1, band]
  rfl

section Gap

variable {i j : Fin axis.bands.size}

theorem signedUnits_band_le (valid : ofList bands = .ok axis) (le : i ≤ j) :
    (axis.band i).signedUnits ≤ (axis.band j).signedUnits := by
  rcases le.lt_or_eq with less | rfl
  · exact Binary64.signedUnits_mono (band_lt_band valid less).2.le
  · exact le_rfl

theorem gap_le_gap (valid : ofList bands = .ok axis) {other : Binary64} (finite : frequency.isFinite)
    (finite' : other.isFinite) (le : ((axis.band i).signedUnits - frequency.signedUnits).natAbs ≤
      ((axis.band j).signedUnits - other.signedUnits).natAbs) :
    axis.gap frequency i ≤ axis.gap other j :=
  Binary64.abs_sub_le_abs_sub (isFinite_band valid i) finite (isFinite_band valid j) finite' le

theorem gap_le_gap_of_le (valid : ofList bands = .ok axis) (finite : frequency.isFinite)
    (le : i ≤ j) (above : frequency ≤ axis.band i) :
    axis.gap frequency i ≤ axis.gap frequency j := by
  have bands := signedUnits_band_le valid le
  have units := Binary64.signedUnits_mono above.2
  exact gap_le_gap valid finite finite (by omega)

theorem gap_le_gap_of_ge (valid : ofList bands = .ok axis) (finite : frequency.isFinite)
    (le : i ≤ j) (below : axis.band j ≤ frequency) :
    axis.gap frequency j ≤ axis.gap frequency i := by
  have bands := signedUnits_band_le valid le
  have units := Binary64.signedUnits_mono below.2
  exact gap_le_gap valid finite finite (by omega)

theorem gap_lt_gap_of_ne (valid : ofList bands = .ok axis) (finite : frequency.isFinite)
    (same : (axis.band i).signedUnits = frequency.signedUnits) (apart : j ≠ i) :
    axis.gap frequency i < axis.gap frequency j := by
  have hi := isFinite_band valid i
  have hj := isFinite_band valid j
  refine Binary64.abs_sub_lt_abs_sub hi finite hj finite same ?_
  rw [← same]
  rcases lt_or_gt_of_ne apart with less | less
  · exact ((Binary64.lt_iff_of_isFinite hj hi).mp (band_lt_band valid less)).ne
  · exact ((Binary64.lt_iff_of_isFinite hi hj).mp (band_lt_band valid less)).ne'

theorem gap_of_isInfinite (valid : ofList bands = .ok axis) (infinite : frequency.isInfinite) :
    axis.gap frequency i = .infinity :=
  Binary64.abs_sub_of_isInfinite (isFinite_band valid i) infinite

theorem comparable_gap (valid : ofList bands = .ok axis) (defined : frequency.isNaN = false)
    (i j : Fin axis.bands.size) :
    Binary64.comparable (axis.gap frequency i) (axis.gap frequency j) = true := by
  rcases Binary64.isFinite_or_isInfinite defined with finite | infinite
  · have le : ∀ i, axis.gap frequency i ≤ axis.gap frequency i := fun i =>
      gap_le_gap valid finite finite le_rfl
    have hi := Binary64.isNaN_of_le (le i)
    have hj := Binary64.isNaN_of_le (le j)
    simp [Binary64.comparable, hi, hj]
  · rw [gap_of_isInfinite valid infinite, gap_of_isInfinite valid infinite]
    decide

end Gap

theorem nearestColumn_of_value (valid : ofList bands = .ok axis) (upper : Fin axis.bands.size)
    (le : axis.band upper ≤ frequency) (ge : frequency ≤ axis.band upper) :
    axis.nearestColumn frequency = upper := by
  have band := isFinite_band valid upper
  have finite := Binary64.isFinite_of_between band band le ge
  have same := Int.le_antisymm (Binary64.signedUnits_mono le.2) (Binary64.signedUnits_mono ge.2)
  rw [nearestColumn_eq valid upper ?_ (.inl (Binary64.not_lt_of_le ge))]
  · by_cases here : axis.before upper = upper
    · rw [here, ite_self]
    · have nearer := gap_lt_gap_of_ne valid finite same here
      rw [if_neg fun le => Binary64.not_lt_of_le le nearer]
  · intro column less
    have below := (Binary64.lt_iff_of_isFinite (isFinite_band valid column) band).mp
      (band_lt_band valid less)
    rw [Binary64.lt_iff_of_isFinite (isFinite_band valid column) finite]
    omega

theorem value_column (valid : ofList bands = .ok axis) (frequency : Binary64) :
    (axis.column frequency).value = axis.nearestColumn frequency := by
  unfold column
  split
  next column found =>
    obtain ⟨inside, rfl⟩ :=
      Array.getElem?_eq_some_iff.mp ((exactColumn?_eq_some_iff valid).mp found)
    have band := isFinite_band valid ⟨column, inside⟩
    have le := (Binary64.le_iff_of_isFinite band band).mpr le_rfl
    exact congrArg Fin.val (nearestColumn_of_value valid ⟨column, inside⟩ le le).symm
  next => rfl

theorem gap_nearestColumn_le (valid : ofList bands = .ok axis) (defined : frequency.isNaN = false)
    (upper : Fin axis.bands.size) (below : ∀ column < upper, axis.band column < frequency)
    (above : ¬ axis.band upper < frequency ∨ upper = axis.last) :
    axis.gap frequency (axis.nearestColumn frequency) ≤ axis.gap frequency (axis.before upper) ∧
      axis.gap frequency (axis.nearestColumn frequency) ≤ axis.gap frequency upper := by
  have reflexive : ∀ column, axis.gap frequency column ≤ axis.gap frequency column := fun column =>
    ⟨comparable_gap valid defined column column, le_rfl⟩
  rw [nearestColumn_eq valid upper below above]
  split_ifs with lower
  · exact ⟨reflexive _, lower⟩
  · have defined' := comparable_gap valid defined (axis.before upper) upper
    exact ⟨Binary64.le_of_lt (Binary64.lt_of_not_le defined' lower), reflexive _⟩

theorem gap_nearestColumn_le_gap (valid : ofList bands = .ok axis) (finite : frequency.isFinite)
    (within : frequency ≤ axis.band axis.last) (other : Fin axis.bands.size) :
    axis.gap frequency (axis.nearestColumn frequency) ≤ axis.gap frequency other := by
  obtain ⟨upper, below, above⟩ := exists_first_not_below valid within
  obtain ⟨nearer, nearer'⟩ := gap_nearestColumn_le valid
    (Binary64.isNaN_eq_false_of_isFinite finite) upper below (.inl (Binary64.not_lt_of_le above))
  rcases lt_or_ge other upper with lower | higher
  · have order : other ≤ axis.before upper ∧ axis.before upper < upper := by
      simp only [before, Fin.lt_def, Fin.le_def] at lower ⊢
      omega
    have notAbove := Binary64.le_of_lt (below _ order.2)
    calc axis.gap frequency (axis.nearestColumn frequency)
        ≤ axis.gap frequency (axis.before upper) := nearer
      _ ≤ axis.gap frequency other := gap_le_gap_of_ge valid finite order.1 notAbove
  · calc axis.gap frequency (axis.nearestColumn frequency)
        ≤ axis.gap frequency upper := nearer'
      _ ≤ axis.gap frequency other := gap_le_gap_of_le valid finite higher above

theorem gap_le_gap_of_earlier (valid : ofList bands = .ok axis) {later : Binary64}
    {upper : Fin axis.bands.size} (finite : frequency.isFinite) (finite' : later.isFinite)
    (le : frequency ≤ later) (below : ∀ column < upper, axis.band column < frequency)
    (above : later ≤ axis.band upper)
    (lower : axis.gap later (axis.before upper) ≤ axis.gap later upper) :
    axis.gap frequency (axis.before upper) ≤ axis.gap frequency upper := by
  have step : axis.before upper ≤ upper := Nat.sub_le _ _
  rcases step.lt_or_eq with less | same
  · have low := Binary64.signedUnits_mono (below _ less).2.le
    have mid := Binary64.signedUnits_mono le.2
    have high := Binary64.signedUnits_mono above.2
    calc axis.gap frequency (axis.before upper)
        ≤ axis.gap later (axis.before upper) := gap_le_gap valid finite finite' (by omega)
      _ ≤ axis.gap later upper := lower
      _ ≤ axis.gap frequency upper := gap_le_gap valid finite' finite (by omega)
  · rw [same]
    exact ⟨comparable_gap valid (Binary64.isNaN_of_le le).1 upper upper, le_rfl⟩

theorem nearestColumn_mono (valid : ofList bands = .ok axis) {later : Binary64}
    (finite : frequency.isFinite) (finite' : later.isFinite) (le : frequency ≤ later)
    (within : later ≤ axis.band axis.last) :
    axis.nearestColumn frequency ≤ axis.nearestColumn later := by
  obtain ⟨upper, below, above⟩ := exists_first_not_below valid (Binary64.le_trans le within)
  obtain ⟨upper', below', above'⟩ := exists_first_not_below valid within
  have order : upper ≤ upper' := by
    by_contra! less
    exact Binary64.not_lt_of_le (Binary64.le_trans le above') (below upper' less)
  rw [nearestColumn_eq valid upper below (.inl (Binary64.not_lt_of_le above)),
    nearestColumn_eq valid upper' below' (.inl (Binary64.not_lt_of_le above'))]
  rcases order.lt_or_eq with less | rfl
  · have steps : axis.before upper ≤ upper ∧ upper ≤ axis.before upper' ∧
        axis.before upper' ≤ upper' := by
      simp only [before, Fin.lt_def, Fin.le_def] at less ⊢
      omega
    split_ifs <;> omega
  · -- Between the same two bands, the lower one recedes and the upper one comes nearer.
    have step : axis.before upper ≤ upper := Nat.sub_le _ _
    by_cases lower' : axis.gap later (axis.before upper) ≤ axis.gap later upper
    · have lower := gap_le_gap_of_earlier valid finite finite' le below above' lower'
      rw [if_pos lower, if_pos lower']
    · rw [if_neg lower']
      split_ifs
      · exact step
      · exact le_rfl

theorem lt_of_last_lt (valid : ofList bands = .ok axis) (less : axis.band axis.last < frequency)
    (column : Fin axis.bands.size) : axis.band column < frequency := by
  have le : column ≤ axis.last := Nat.le_sub_one_of_lt column.isLt
  rcases le.lt_or_eq with early | rfl
  · exact Binary64.lt_trans (band_lt_band valid early) less
  · exact less

theorem gap_last_le_gap (valid : ofList bands = .ok axis) (less : axis.band axis.last < frequency)
    (other : Fin axis.bands.size) : axis.gap frequency axis.last ≤ axis.gap frequency other := by
  have defined := (Binary64.isNaN_of_lt less).2
  rcases Binary64.isFinite_or_isInfinite defined with finite | infinite
  · exact gap_le_gap_of_ge valid finite (Nat.le_sub_one_of_lt other.isLt) (Binary64.le_of_lt less)
  · rw [gap_of_isInfinite valid infinite, gap_of_isInfinite valid infinite]
    decide

theorem value_column_of_lt_first (valid : ofList bands = .ok axis)
    (less : frequency < axis.band axis.first) :
    (axis.column frequency).value = axis.first := by
  have notBelow := Binary64.not_lt_of_le (Binary64.le_of_lt less)
  have none : ∀ column < axis.first, axis.band column < frequency := fun column early =>
    absurd early (Nat.not_lt_zero _)
  rw [value_column valid, nearestColumn_eq valid axis.first none (.inl notBelow)]
  exact congrArg Fin.val (ite_self axis.first)

theorem value_column_of_last_lt (valid : ofList bands = .ok axis)
    (less : axis.band axis.last < frequency) :
    (axis.column frequency).value =
      if axis.gap frequency (axis.before axis.last) ≤ axis.gap frequency axis.last then
        (axis.before axis.last).val
      else axis.last.val := by
  have below : ∀ column < axis.last, axis.band column < frequency := fun column _ =>
    lt_of_last_lt valid less column
  rw [value_column valid, nearestColumn_eq valid axis.last below (.inr rfl)]
  split_ifs <;> rfl

theorem before_last_eq_last_iff (axis : BandAxis) :
    (axis.before axis.last).val = axis.last.val ↔ axis.size = 1 := by
  have nonempty := axis.nonempty
  simp only [before, last, size]
  omega

/-- Below the axis the first band answers. Above it the last band is the nearest, but the band
before answers wherever both differences round to the same, and so at infinity. -/
theorem column_outside (valid : ofList bands = .ok axis) (frequency : Binary64) :
    (frequency < axis.band axis.first → (axis.column frequency).value = axis.first) ∧
    (axis.band axis.last < frequency →
      (∀ other, axis.gap frequency axis.last ≤ axis.gap frequency other) ∧
      ((axis.column frequency).value = axis.last ∨
        (axis.column frequency).value = axis.before axis.last) ∧
      ((axis.column frequency).value = axis.last ↔
        axis.size = 1 ∨ axis.gap frequency axis.last < axis.gap frequency (axis.before axis.last)) ∧
      (frequency.isInfinite → (axis.column frequency).value = axis.before axis.last)) := by
  constructor
  · exact value_column_of_lt_first valid
  · intro less
    have nearest := value_column_of_last_lt valid less
    refine ⟨gap_last_le_gap valid less, ?_, ?_, ?_⟩
    · rw [nearest]
      split_ifs
      · exact .inr rfl
      · exact .inl rfl
    · rw [nearest]
      split_ifs with tie
      · rw [before_last_eq_last_iff, or_iff_left (Binary64.not_lt_of_le tie)]
      · have defined := (Binary64.isNaN_of_lt less).2
        have nearer := Binary64.lt_of_not_le (comparable_gap valid defined _ _) tie
        exact iff_of_true rfl (.inr nearer)
    · intro infinite
      have tie : axis.gap frequency (axis.before axis.last) ≤ axis.gap frequency axis.last := by
        rw [gap_of_isInfinite valid infinite, gap_of_isInfinite valid infinite]
        decide
      rw [nearest, if_pos tie]

def octaves : BandAxis where
  bands := #[100, 200, 400]
  columns := columnsOf [100, 200, 400]
  nonempty := by decide

theorem ofList_octaves : ofList [100, 200, 400] = .ok octaves := by
  have finite : ([100, 200, 400] : List Binary64).find? (fun band => !band.isFinite) = none := by
    decide +kernel
  have ascending : firstDescent? [100, 200, 400] = none := by
    decide +kernel
  rw [ofList, dif_neg (List.cons_ne_nil _ _), finite]
  simp only [ascending]
  rfl

theorem column_outside_octaves :
    octaves.band octaves.last < 8000 ∧ (octaves.column 10).value = 0 ∧
      (octaves.column 8000).value = 2 := by
  have less : octaves.band octaves.last < 8000 := by decide +kernel
  obtain ⟨-, -, nearer, -⟩ := (column_outside ofList_octaves 8000).2 less
  refine ⟨less, (column_outside ofList_octaves 10).1 (by decide +kernel), nearer.mpr (.inr ?_)⟩
  decide +kernel

theorem column_outside_not_last :
    ofList [100, 200, 400] = .ok octaves ∧ octaves.band octaves.last < .infinity ∧
      (octaves.column .infinity).value = 1 ∧ octaves.size = 3 := by
  refine ⟨ofList_octaves, by decide +kernel, ?_, rfl⟩
  rw [value_column ofList_octaves]
  decide +kernel

/-- Between the first and the last band, a nearest band of all answers: the one that has the value
of the frequency, or else one of the two around it, the lower of them unless the upper is nearer. A
greater frequency never gets a lower column. -/
theorem column_nearest (valid : ofList bands = .ok axis)
    (above : axis.band axis.first ≤ frequency) (within : frequency ≤ axis.band axis.last) :
    ∃ column : Fin axis.bands.size, (axis.column frequency).value = column ∧
      (∀ other, axis.gap frequency column ≤ axis.gap frequency other) ∧
      ((axis.band column).sameValue frequency ∨
        ∃ upper, axis.band (axis.before upper) < frequency ∧ frequency < axis.band upper ∧
          column = if axis.gap frequency (axis.before upper) ≤ axis.gap frequency upper
            then axis.before upper else upper) ∧
      ∀ later, frequency ≤ later → later ≤ axis.band axis.last →
        column ≤ (axis.column later).value := by
  have finite :=
    Binary64.isFinite_of_between (isFinite_band valid _) (isFinite_band valid _) above within
  refine ⟨axis.nearestColumn frequency, value_column valid frequency,
    gap_nearestColumn_le_gap valid finite within, ?_, fun later le within' => ?_⟩
  · obtain ⟨upper, below, notBelow⟩ := exists_first_not_below valid within
    by_cases same : axis.band upper ≤ frequency
    · rw [nearestColumn_of_value valid upper same notBelow]
      exact .inl (Binary64.sameValue_of_le same notBelow)
    · have less := Binary64.lt_of_not_le
        (Binary64.comparable_of_isFinite (isFinite_band valid upper) finite) same
      have apart : upper ≠ axis.first := by
        rintro rfl
        exact same above
      have step : axis.before upper < upper := by
        simp only [first, before, ne_eq, Fin.ext_iff, Fin.lt_def] at apart ⊢
        omega
      exact .inr ⟨upper, below _ step, less,
        nearestColumn_eq valid upper below (.inl (Binary64.not_lt_of_le notBelow))⟩
  · rw [value_column valid later]
    have finite' := Binary64.isFinite_of_between finite (isFinite_band valid _) le within'
    exact nearestColumn_mono valid finite finite' le within'

theorem column_nearest_octaves :
    (octaves.column 150).value = 0 ∧ (octaves.column 150).value ≤ (octaves.column 390).value := by
  have apart : ∀ column : Fin octaves.bands.size, ¬ (octaves.band column).sameValue 150 := by
    decide +kernel
  have tie : ∀ upper : Fin octaves.bands.size,
      octaves.band (octaves.before upper) < 150 → 150 < octaves.band upper →
        octaves.gap 150 (octaves.before upper) ≤ octaves.gap 150 upper ∧
          (octaves.before upper : Nat) = 0 := by
    decide +kernel
  have above : octaves.band octaves.first ≤ 150 := by decide +kernel
  have within : 150 ≤ octaves.band octaves.last := by decide +kernel
  obtain ⟨column, same, -, around, mono⟩ := column_nearest ofList_octaves above within
  have later := mono 390 (by decide +kernel) (by decide +kernel)
  rw [same]
  refine ⟨?_, later⟩
  rcases around with band | ⟨upper, below, notAbove, rfl⟩
  · exact absurd band (apart column)
  · obtain ⟨lower, zero⟩ := tie upper below notAbove
    rw [if_pos lower, zero]

end BandAxis

end Directivity
