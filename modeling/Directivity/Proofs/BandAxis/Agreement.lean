import Directivity.Proofs.BandAxis.Shortcut

set_option autoImplicit false
set_option relaxedAutoImplicit false

namespace Directivity.BandAxis

variable {bands bands' : List Binary64} {axis axis' : BandAxis}

theorem eq_of_agrees (valid : ofList bands = .ok axis) (valid' : ofList bands' = .ok axis')
    (agree : axis.agrees axis') : bands = bands' := by
  simp only [agrees, Bool.and_eq_true] at agree
  have columns : axis.columns.Equiv axis'.columns := Std.TreeMap.equiv_of_beq agree.2
  apply List.ext_getElem?
  intro column
  rw [← List.getElem?_toArray, ← List.getElem?_toArray, ← (eq_of_ofList valid).1,
    ← (eq_of_ofList valid').1]
  ext frequency
  rw [← exactColumn?_eq_some_iff valid, ← exactColumn?_eq_some_iff valid', exactColumn?, exactColumn?,
    columns.getElem?_eq]

theorem agrees_self (valid : ofList bands = .ok axis) : axis.agrees axis := by
  have values : ∀ pair ∈ axis.toList.zip axis.toList, pair.1.sameValue pair.2 := by
    rintro ⟨x, y⟩ member
    rw [List.zip_eq_zipWith, List.zipWith_self, List.mem_map] at member
    obtain ⟨z, member, same⟩ := member
    rw [toList, (eq_of_ofList valid).1] at member
    obtain ⟨rfl, rfl⟩ := Prod.mk.inj same
    exact Binary64.sameValue_self
      (Binary64.isNaN_eq_false_of_isFinite (isFinite_of_ofList valid z member))
  simp only [agrees, beq_self_eq_true, Bool.true_and, Bool.and_eq_true, List.all_eq_true]
  exact ⟨fun pair member => values pair member, Std.TreeMap.Equiv.rfl.beq⟩

theorem exists_upper (valid : ofList bands = .ok axis) (frequency : Binary64) :
    ∃ upper : Fin axis.bands.size, (∀ column < upper, axis.band column < frequency) ∧
      (¬ axis.band upper < frequency ∨ upper = axis.last) := by
  obtain ⟨inside, counted⟩ := lt_iff_lt_cut valid frequency
  rcases inside.lt_or_eq with early | late
  · exact ⟨⟨_, early⟩, fun column => (counted column).mpr, .inl fun less => ((counted _).mp less).false⟩
  · refine ⟨axis.last, fun column _ => (counted column).mpr ?_, .inr rfl⟩
    rw [late]
    exact column.isLt

structure SameValues (axis axis' : BandAxis) : Prop where
  size : axis.bands.size = axis'.bands.size
  band : ∀ column, (axis.band column).sameValue (axis'.band (column.cast size))

namespace SameValues

theorem gap (same : SameValues axis axis') (valid : ofList bands = .ok axis)
    (valid' : ofList bands' = .ok axis') (frequency : Binary64) (column : Fin axis.bands.size) :
    axis.gap frequency column = axis'.gap frequency (column.cast same.size) :=
  Binary64.abs_sub_of_sameValue_left (isFinite_band valid column) (isFinite_band valid' _)
    (same.band column)

theorem nearestColumn (same : SameValues axis axis') (valid : ofList bands = .ok axis)
    (valid' : ofList bands' = .ok axis') (frequency : Binary64) :
    (axis.nearestColumn frequency : Nat) = axis'.nearestColumn frequency := by
  obtain ⟨upper, below, above⟩ := exists_upper valid frequency
  have below' : ∀ column < upper.cast same.size, axis'.band column < frequency := fun column less =>
    (Binary64.lt_iff_of_sameValue_left (same.band (column.cast same.size.symm))).mp (below _ less)
  have above' : ¬ axis'.band (upper.cast same.size) < frequency ∨
      upper.cast same.size = axis'.last := by
    rcases above with notBelow | rfl
    · exact .inl fun less =>
        notBelow ((Binary64.lt_iff_of_sameValue_left (same.band upper)).mpr less)
    · exact .inr (Fin.ext (congrArg (· - 1) same.size))
  rw [nearestColumn_eq valid upper below above, nearestColumn_eq valid' _ below' above',
    same.gap valid valid', same.gap valid valid']
  show _ = Fin.val (if axis'.gap frequency ((axis.before upper).cast same.size) ≤ _ then
    (axis.before upper).cast same.size else _)
  split_ifs <;> rfl

end SameValues

theorem getElem?_bands (valid : ofList bands = .ok axis) (column : Fin axis.bands.size) :
    bands[column.val]? = some (axis.band column) := by
  rw [← List.getElem?_toArray, ← (eq_of_ofList valid).1]
  exact Array.getElem?_eq_getElem column.isLt

theorem sameValues_of_forall₂ (valid : ofList bands = .ok axis) (valid' : ofList bands' = .ok axis')
    (same : List.Forall₂ (fun band band' => band.sameValue band') bands bands') :
    SameValues axis axis' := by
  obtain ⟨length, values⟩ := List.forall₂_iff_get.mp same
  have size : axis.bands.size = axis'.bands.size :=
    (size_of_ofList valid).trans (length.trans (size_of_ofList valid').symm)
  refine ⟨size, fun column => ?_⟩
  obtain ⟨inside, band⟩ := List.getElem?_eq_some_iff.mp (getElem?_bands valid column)
  obtain ⟨inside', band'⟩ := List.getElem?_eq_some_iff.mp (getElem?_bands valid' (column.cast size))
  rw [← band, ← band']
  exact values column inside inside'

/-- Different lists of bands that differ at zeros alone, which then differ in sign. -/
def DifferAtZeros (bands bands' : List Binary64) : Prop :=
  bands ≠ bands' ∧ List.Forall₂ (fun band band' => band = band' ∨ band.isZero ∧ band'.isZero) bands bands'

theorem forall₂_sameValue_iff (finite : ∀ band ∈ bands, band.isFinite) :
    List.Forall₂ (fun band band' => band.sameValue band') bands bands' ↔
      bands = bands' ∨ DifferAtZeros bands bands' := by
  constructor
  · intro same
    refine or_iff_not_imp_left.mpr fun apart => ⟨apart, same.imp ?_⟩
    exact fun _ _ => Binary64.eq_or_isZero_of_sameValue
  · rintro (rfl | ⟨-, differ⟩)
    · exact List.forall₂_same.mpr fun band member =>
        Binary64.sameValue_self (Binary64.isNaN_eq_false_of_isFinite (finite band member))
    · refine ((List.forall₂_and_left _ _).mpr ⟨finite, differ⟩).imp ?_
      rintro band band' ⟨finite, rfl | ⟨zero, zero'⟩⟩
      · exact Binary64.sameValue_self (Binary64.isNaN_eq_false_of_isFinite finite)
      · exact Binary64.sameValue_of_isZero zero zero'

/-- Two axes agree if and only if they have the same bands, pattern by pattern, and then every
frequency has the same column in both. Bands of the same values are the same, or differ at zeros
alone; in the latter case the axes do not agree, and still every frequency has the same column. -/
theorem agrees_iff_bands (valid : ofList bands = .ok axis) (valid' : ofList bands' = .ok axis') :
    (axis.agrees axis' ↔ bands = bands') ∧
      (axis.agrees axis' → ∀ frequency, axis.column frequency = axis'.column frequency) ∧
      (List.Forall₂ (fun band band' => band.sameValue band') bands bands' ↔
        bands = bands' ∨ DifferAtZeros bands bands') ∧
      (DifferAtZeros bands bands' → axis.agrees axis' = false ∧
        ∀ frequency, (axis.column frequency).value = (axis'.column frequency).value) := by
  have same_axis : bands = bands' → axis = axis' := by
    rintro rfl
    exact Except.ok.inj (valid.symm.trans valid')
  refine ⟨⟨eq_of_agrees valid valid', fun same => ?_⟩, fun agree frequency => ?_,
    forall₂_sameValue_iff (isFinite_of_ofList valid), fun differ => ⟨?_, fun frequency => ?_⟩⟩
  · rw [← same_axis same]
    exact agrees_self valid
  · rw [same_axis (eq_of_agrees valid valid' agree)]
  · exact Bool.eq_false_iff.mpr fun agree => differ.1 (eq_of_agrees valid valid' agree)
  · have values := (forall₂_sameValue_iff (isFinite_of_ofList valid)).mpr (.inr differ)
    rw [value_column valid, value_column valid']
    exact (sameValues_of_forall₂ valid valid' values).nearestColumn valid valid' frequency

theorem agrees_iff_bands_zeros :
    ∃ axis axis', ofList [0, 100] = .ok axis ∧ ofList [-0, 100] = .ok axis' ∧
      axis.agrees axis = true ∧ axis.agrees axis' = false ∧
      (axis.column 0).value = (axis'.column 0).value := by
  obtain ⟨axis, valid⟩ : ∃ axis, ofList [0, 100] = .ok axis :=
    exists_ofList (by decide) (by decide +kernel) (by decide +kernel)
  obtain ⟨axis', valid'⟩ : ∃ axis', ofList [-0, 100] = .ok axis' :=
    exists_ofList (by decide) (by decide +kernel) (by decide +kernel)
  have differ : DifferAtZeros [0, 100] [-0, 100] := by
    refine ⟨by decide +kernel, .cons (.inr (by decide +kernel)) (.cons (.inl rfl) .nil)⟩
  obtain ⟨-, -, -, apart⟩ := agrees_iff_bands valid valid'
  exact ⟨axis, axis', valid, valid', (agrees_iff_bands valid valid).1.mpr rfl, (apart differ).1,
    (apart differ).2 0⟩

end Directivity.BandAxis
