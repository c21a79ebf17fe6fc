import Directivity.Proofs.BandAxis.Nearest

set_option autoImplicit false
set_option relaxedAutoImplicit false

namespace Directivity.BandAxis

variable {bands : List Binary64} {axis : BandAxis} {frequency other : Binary64}

theorem gap_of_sameValue (valid : ofList bands = .ok axis) (same : frequency.sameValue other)
    (column : Fin axis.bands.size) : axis.gap frequency column = axis.gap other column :=
  Binary64.abs_sub_of_sameValue (isFinite_band valid column) same

theorem nearestColumn_of_sameValue (valid : ofList bands = .ok axis)
    (same : frequency.sameValue other) :
    axis.nearestColumn frequency = axis.nearestColumn other := by
  have below : (fun band : Binary64 => decide (band < frequency)) = fun band => decide (band < other) :=
    funext fun _ => decide_eq_decide.mpr (Binary64.lt_iff_of_sameValue same)
  have gaps : ∀ (column : Nat) (inside : column < axis.bands.size),
      (axis.bands[column] - frequency).abs = (axis.bands[column] - other).abs :=
    fun column inside => gap_of_sameValue valid same ⟨column, inside⟩
  simp only [nearestColumn, below, gaps]

/-- The columns of patterns are the positions of the bands, one for each. Whether a frequency has
one or not, the search for the nearest band leads to the column that answers for it, and so
frequencies of one value share their column. -/
theorem columns_change_no_answer (valid : ofList bands = .ok axis) :
    axis.columns.size = bands.length ∧
      (∀ (pattern : UInt64) (column : Nat),
        axis.columns[pattern]? = some column ↔ bands[column]?.map Binary64.bits = some pattern) ∧
      (∀ (column : Nat) (inside : column < bands.length),
        axis.column bands[column] = pure column) ∧
      (∀ frequency, (axis.column frequency).value = axis.nearestColumn frequency) ∧
      ∀ frequency other, frequency.sameValue other →
        (axis.column frequency).value = (axis.column other).value := by
  refine ⟨size_columns valid, fun pattern column => ?_, fun column inside => ?_,
    value_column valid, fun frequency other same => ?_⟩
  · have listed : axis.bands[column]? = bands[column]? := by
      rw [(eq_of_ofList valid).1, List.getElem?_toArray]
    have entry : axis.exactColumn? ⟨pattern⟩ = some column ↔ axis.bands[column]? = some ⟨pattern⟩ :=
      exactColumn?_eq_some_iff valid
    rw [exactColumn?, listed] at entry
    rw [entry, Option.map_eq_some_iff]
    constructor
    · intro here
      exact ⟨_, here, rfl⟩
    · rintro ⟨band, here, rfl⟩
      exact here
  · have known := exactColumn?_of_getElem? valid (List.getElem?_eq_getElem inside)
    rw [BandAxis.column, known]
  · rw [value_column valid, value_column valid, nearestColumn_of_sameValue valid same]

theorem columns_change_no_answer_zero :
    ∃ axis, ofList [0, 100] = .ok axis ∧ axis.columns.size = 2 ∧ axis.column 0 = pure 0 ∧
      axis.columns[(-0 : Binary64).bits]? = none ∧ (axis.column (-0)).value = 0 := by
  obtain ⟨axis, valid⟩ : ∃ axis, ofList [0, 100] = .ok axis :=
    exists_ofList (by decide) (by decide +kernel) (by decide +kernel)
  obtain ⟨size, patterns, own, -, values⟩ := columns_change_no_answer valid
  have zero := own 0 (by decide)
  refine ⟨axis, valid, size, zero, ?_, ?_⟩
  · cases found : axis.columns[(-0 : Binary64).bits]? with
    | none => rfl
    | some column =>
      obtain ⟨band, here, same⟩ := Option.map_eq_some_iff.mp ((patterns _ _).mp found)
      have apart : ∀ band ∈ ([0, 100] : List Binary64), band.bits ≠ (-0 : Binary64).bits := by
        decide +kernel
      exact absurd same (apart band (List.mem_of_getElem? here))
  · rw [← values 0 (-0) (by decide +kernel)]
    exact congrArg Logged.value zero

end Directivity.BandAxis
