import Directivity.BandAxis
import Directivity.Proofs.Difference
import Mathlib.Data.List.Chain

set_option autoImplicit false
set_option relaxedAutoImplicit false

namespace Directivity.BandAxis

variable {bands : List Binary64} {axis : BandAxis}

theorem firstDescent?_eq_none_iff (bands : List Binary64) :
    firstDescent? bands = none ↔ bands.IsChain fun earlier later => ¬ later ≤ earlier := by
  induction bands with
  | nil => simp [firstDescent?]
  | cons a bands ih =>
    cases bands with
    | nil => simp [firstDescent?]
    | cons b bands =>
      rw [List.isChain_cons_cons, ← ih]
      simp [firstDescent?]

theorem checks_of_ofList (valid : ofList bands = .ok axis) :
    (bands.find? fun band => !band.isFinite) = none ∧ firstDescent? bands = none := by
  unfold ofList at valid
  split at valid
  · cases valid
  · split at valid
    · cases valid
    next finite =>
      split at valid
      · cases valid
      next ascending => exact ⟨finite, ascending⟩

theorem exists_ofList (nonempty : bands ≠ [])
    (finite : (bands.find? fun band => !band.isFinite) = none)
    (ascending : firstDescent? bands = none) : ∃ axis, ofList bands = .ok axis := by
  simp [ofList, nonempty, finite, ascending]

theorem isFinite_of_ofList (valid : ofList bands = .ok axis) : ∀ band ∈ bands, band.isFinite := by
  simpa using (checks_of_ofList valid).1

/-- Finite bands of which no neighbours descend ascend, those further apart as well: a NaN, which
compares with nothing, is not among them. -/
theorem isChain_iff_pairwise (finite : ∀ band ∈ bands, band.isFinite) :
    (bands.IsChain fun earlier later => ¬ later ≤ earlier) ↔ bands.Pairwise (· < ·) := by
  rw [← List.isChain_iff_pairwise, List.isChain_iff_getElem, List.isChain_iff_getElem]
  refine forall_congr' fun i => forall_congr' fun inside => ?_
  have earlier := finite bands[i] (List.getElem_mem _)
  have later := finite bands[i + 1] (List.getElem_mem _)
  rw [Binary64.le_iff_of_isFinite later earlier, Binary64.lt_iff_of_isFinite earlier later, not_le]

theorem pairwise_of_ofList (valid : ofList bands = .ok axis) : bands.Pairwise (· < ·) :=
  (isChain_iff_pairwise (isFinite_of_ofList valid)).mp
    ((firstDescent?_eq_none_iff bands).mp (checks_of_ofList valid).2)

def band (axis : BandAxis) (column : Fin axis.bands.size) : Binary64 :=
  axis.bands[column]

theorem isFinite_band (valid : ofList bands = .ok axis) (column : Fin axis.bands.size) :
    (axis.band column).isFinite := by
  have finite : ∀ band ∈ axis.bands, band.isFinite := by
    rw [(eq_of_ofList valid).1]
    simpa using isFinite_of_ofList valid
  exact finite _ (Array.getElem_mem column.isLt)

theorem band_lt_band (valid : ofList bands = .ok axis) {i j : Fin axis.bands.size} (less : i < j) :
    axis.band i < axis.band j := by
  have ascending : axis.bands.toList.Pairwise (· < ·) := by
    rw [(eq_of_ofList valid).1]
    exact pairwise_of_ofList valid
  exact List.pairwise_iff_getElem.mp ascending i j i.isLt j.isLt less

private theorem patterns_apart (valid : ofList bands = .ok axis) :
    (bands.zipIdx.map fun (band, column) => (band.bits, column)).Pairwise
      fun a b => ¬ compare a.1 b.1 = .eq := by
  have entries : (bands.zipIdx.map Prod.fst).Pairwise (· < ·) := by
    rw [List.zipIdx_map_fst]
    exact pairwise_of_ofList valid
  rw [List.pairwise_map] at entries ⊢
  refine entries.imp ?_
  rintro ⟨x, i⟩ ⟨y, j⟩ less same
  have equal : x = y := congrArg Binary64.mk (Std.LawfulEqCmp.eq_of_compare same)
  subst equal
  exact less.2.false

theorem size_columns (valid : ofList bands = .ok axis) : axis.columns.size = bands.length := by
  rw [(eq_of_ofList valid).2, columnsOf, Std.TreeMap.size_ofList (patterns_apart valid),
    List.length_map, List.length_zipIdx]

theorem exactColumn?_of_getElem? (valid : ofList bands = .ok axis) {frequency : Binary64}
    {column : Nat} (band : bands[column]? = some frequency) :
    axis.exactColumn? frequency = some column := by
  rw [exactColumn?, (eq_of_ofList valid).2, columnsOf]
  refine Std.TreeMap.getElem?_ofList_of_mem Std.ReflCmp.compare_self (patterns_apart valid) ?_
  exact List.mem_map_of_mem (List.mk_mem_zipIdx_iff_getElem?.mpr band)

theorem exactColumn?_of_not_mem (valid : ofList bands = .ok axis) {frequency : Binary64}
    (noBand : frequency ∉ bands) : axis.exactColumn? frequency = none := by
  have patterns : (bands.zipIdx.map fun (band, column) => (band.bits, column)).map Prod.fst =
      bands.map Binary64.bits := by
    rw [List.map_map]
    show bands.zipIdx.map (Binary64.bits ∘ Prod.fst) = _
    rw [← List.map_map, List.zipIdx_map_fst]
  have injective : Function.Injective Binary64.bits := fun _ _ => congrArg Binary64.mk
  have absent : (bands.map Binary64.bits).contains frequency.bits = false := by
    rwa [List.contains_eq_mem, decide_eq_false_iff_not, List.mem_map_of_injective injective]
  rw [exactColumn?, (eq_of_ofList valid).2, columnsOf]
  exact Std.TreeMap.getElem?_ofList_of_contains_eq_false (patterns ▸ absent)

theorem exactColumn?_eq_some_iff (valid : ofList bands = .ok axis) {frequency : Binary64}
    {column : Nat} :
    axis.exactColumn? frequency = some column ↔ axis.bands[column]? = some frequency := by
  rw [(eq_of_ofList valid).1, List.getElem?_toArray]
  constructor
  · intro found
    by_cases band : frequency ∈ bands
    · obtain ⟨position, here⟩ := List.mem_iff_getElem?.mp band
      rw [exactColumn?_of_getElem? valid here] at found
      rwa [← Option.some_inj.mp found]
    · rw [exactColumn?_of_not_mem valid band] at found
      cases found
  · exact exactColumn?_of_getElem? valid

theorem column_band (valid : ofList bands = .ok axis) (column : Fin axis.bands.size) :
    axis.column (axis.band column) = pure column.val := by
  have known : axis.exactColumn? (axis.band column) = some column.val :=
    (exactColumn?_eq_some_iff valid).mpr (Array.getElem?_eq_getElem column.isLt)
  rw [BandAxis.column, known]

end Directivity.BandAxis
