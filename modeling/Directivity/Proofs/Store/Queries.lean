import Directivity.Proofs.Store.Sizes
import Directivity.Proofs.Store.Weights

set_option autoImplicit false
set_option relaxedAutoImplicit false

namespace Directivity

private theorem flatMap_map_filter {α β : Type} (p : α → Bool) (f : α → β) (xs : List α) :
    (xs.flatMap fun x => ([x].filter p).map f) = (xs.filter p).map f := by
  induction xs with
  | nil => rfl
  | cons x xs ih =>
    rw [List.flatMap_cons, ih, ← List.map_append, ← List.filter_append]
    rfl

namespace BandAxis

variable {axis : BandAxis} {bands : List Binary64}

theorem nearestColumn_lt (axis : BandAxis) (frequency : Binary64) :
    (axis.nearestColumn frequency).val < axis.bands.size :=
  (axis.nearestColumn frequency).isLt

def reports (axis : BandAxis) (frequencies : List Binary64) : List Event :=
  (frequencies.filter fun frequency => !axis.bands.contains frequency).map fun frequency =>
    have inside := axis.nearestColumn_lt frequency
    .nearestBand frequency axis.bands[(axis.nearestColumn frequency).val]

theorem isSome_exactColumn? (valid : ofList bands = .ok axis) (frequency : Binary64) :
    (axis.exactColumn? frequency).isSome ↔ frequency ∈ axis.bands := by
  rw [Option.isSome_iff_exists, Array.mem_iff_getElem?]
  exact exists_congr fun column => exactColumn?_eq_some_iff valid

theorem events_column (valid : ofList bands = .ok axis) (frequency : Binary64) :
    (axis.column frequency).events = axis.reports [frequency] := by
  have known := isSome_exactColumn? valid frequency
  unfold column reports
  cases found : axis.exactColumn? frequency with
  | some column =>
    rw [found] at known
    have band : frequency ∈ axis.bands := known.mp rfl
    simp [band]
  | none =>
    rw [found] at known
    have noBand : frequency ∉ axis.bands := fun band => by simpa using known.mpr band
    simp [noBand, Logged.report]

theorem events_columnsFor (valid : ofList bands = .ok axis) (frequencies : List Binary64) :
    (axis.columnsFor frequencies).events = axis.reports frequencies := by
  rw [columnsFor, Logged.events_mapM]
  simp only [events_column valid]
  exact flatMap_map_filter _ _ frequencies

end BandAxis

namespace Store

variable {store : Store}

def reports (store : Store) (directions : List Direction) : List Event :=
  (directions.filter fun direction => (store.cell? direction).isNone).map .noCell

theorem events_answerBy (lib : Elementary) (store : Store) (interpolation : Interpolation)
    (direction : Direction) :
    (store.answerBy lib interpolation direction).events = store.reports [direction] := by
  unfold answerBy reports
  cases found : store.cell? direction <;> simp [found, Logged.report]

theorem Reachable.ofList_axis (reachable : store.Reachable) :
    ∃ bands, BandAxis.ofList bands = .ok store.axis := by
  obtain ⟨options, identifier, bands, created, operations, valid, rfl⟩ := reachable
  obtain ⟨axis, bandAxis, empty⟩ := createWith_eq_ok valid
  refine ⟨bands, ?_⟩
  rw [(arranged_of_createWith valid).axis_run, empty]
  exact bandAxis

theorem value_attenuations (lib : Elementary) (store : Store) (frequencies : List Binary64)
    (direction : Direction) :
    (store.attenuations lib frequencies direction).value =
      frequencies.map fun frequency => (store.attenuation lib frequency direction).value :=
  Logged.value_mapM _ frequencies

theorem value_attenuationTable (lib : Elementary) (store : Store) (frequencies : List Binary64)
    (directions : List Direction) :
    (store.attenuationTable lib frequencies directions).value =
      directions.map fun direction => (store.attenuations lib frequencies direction).value := by
  have columns : (store.axis.columnsFor frequencies).value =
      frequencies.map fun frequency => (store.axis.column frequency).value :=
    Logged.value_mapM _ frequencies
  refine (Logged.value_mapM _ directions).trans (List.map_congr_left fun direction _ => ?_)
  rw [value_attenuations, Logged.value_bind, Logged.value_pure, columns, List.map_map]
  rfl

theorem getElem?_answerBy (reachable : store.Reachable) (lib : Elementary)
    (interpolation : Interpolation) (frequency : Binary64) (direction : Direction) :
    let record := (store.answerBy lib interpolation direction).value.record
    let column := (store.axis.column frequency).value
    record.attenuation[column]? = some (record.value column) := by
  intro record column
  obtain ⟨bands, valid⟩ := reachable.ofList_axis
  have inside : column < record.attenuation.size := by
    rw [reachable.arranged.size_answerBy lib interpolation direction]
    exact BandAxis.column_lt valid frequency
  rw [Array.getElem?_eq_getElem inside, Record.value, Array.getD_eq_getD_getElem?,
    Array.getElem?_eq_getElem inside, Option.getD_some]

theorem events_attenuation (reachable : store.Reachable) (lib : Elementary)
    (frequency : Binary64) (direction : Direction) :
    (store.attenuation lib frequency direction).events =
      store.axis.reports [frequency] ++ store.reports [direction] := by
  obtain ⟨bands, valid⟩ := reachable.ofList_axis
  simp [attenuation, answer, BandAxis.events_column valid, events_answerBy]

theorem events_attenuations (reachable : store.Reachable) (lib : Elementary)
    (frequencies : List Binary64) (direction : Direction) :
    (store.attenuations lib frequencies direction).events =
      store.reports [direction] ++ store.axis.reports frequencies := by
  obtain ⟨bands, valid⟩ := reachable.ofList_axis
  rw [attenuations, Logged.events_bind, answer, events_answerBy, Logged.events_mapM,
    ← BandAxis.events_columnsFor valid, BandAxis.columnsFor, Logged.events_mapM]
  simp

theorem events_attenuationTable (reachable : store.Reachable) (lib : Elementary)
    (frequencies : List Binary64) (directions : List Direction) :
    (store.attenuationTable lib frequencies directions).events =
      store.axis.reports frequencies ++ store.reports directions := by
  obtain ⟨bands, valid⟩ := reachable.ofList_axis
  rw [attenuationTable, Logged.events_bind, BandAxis.events_columnsFor valid, Logged.events_mapM,
    reports, ← flatMap_map_filter]
  simp [answer, events_answerBy, reports]

/-- However a store is asked, it gives the values of its records in the columns of the frequencies.
A table reports the frequencies once and then the directions; several frequencies towards one
direction report the direction once and then the frequencies; and frequencies one by one report the
direction behind each of them. -/
theorem queries_agree (reachable : store.Reachable) (lib : Elementary)
    (frequencies : List Binary64) (directions : List Direction) :
    let table := store.attenuationTable lib frequencies directions
    table.value = directions.map (fun direction =>
        (store.attenuations lib frequencies direction).value) ∧
      table.events = store.axis.reports frequencies ++ store.reports directions ∧
      ∀ direction,
        let together := store.attenuations lib frequencies direction
        let single := oneByOne (store.attenuation lib) frequencies direction
        together.value = single.value ∧
          (together.value = frequencies.map fun frequency =>
            (store.attenuation lib frequency direction).value) ∧
          (∀ frequency,
            (store.answerBy lib store.interpolation direction).value.record.attenuation[
                (store.axis.column frequency).value]? =
              some (store.attenuation lib frequency direction).value) ∧
          together.events = store.reports [direction] ++ store.axis.reports frequencies ∧
          single.events = frequencies.flatMap fun frequency =>
            store.axis.reports [frequency] ++ store.reports [direction] := by
  intro table
  refine ⟨value_attenuationTable lib store frequencies directions,
    events_attenuationTable reachable lib frequencies directions, fun direction => ?_⟩
  intro together single
  have each := value_attenuations lib store frequencies direction
  have single_value : single.value = frequencies.map fun frequency =>
      (store.attenuation lib frequency direction).value := Logged.value_mapM _ frequencies
  have single_events : single.events = frequencies.flatMap fun frequency =>
      store.axis.reports [frequency] ++ store.reports [direction] := by
    simp only [single, oneByOne, Logged.events_mapM, events_attenuation reachable]
  exact ⟨each.trans single_value.symm, each,
    fun frequency => getElem?_answerBy reachable lib store.interpolation frequency direction,
    events_attenuations reachable lib frequencies direction, single_events⟩

def twoHundredHertz : Binary64 := ⟨0x4069000000000000⟩

/-- Two bands, and three corners of a square, of which the fourth is missing. -/
def cornerStore : Store :=
  (blank ⟨#[hundredHertz, twoHundredHertz],
    BandAxis.columnsOf [hundredHertz, twoHundredHertz], Nat.two_pos⟩ .nearest).run
  [.insert ⟨⟨⟨0⟩, ⟨0⟩⟩, #[1, 2]⟩, .insert ⟨⟨⟨0⟩, .halfPi⟩, #[3, 4]⟩,
    .insert ⟨⟨.halfPi, ⟨0⟩⟩, #[5, 6]⟩]

theorem reachable_cornerStore : cornerStore.Reachable :=
  @reachable_run_blank [hundredHertz, twoHundredHertz] _ rfl .nearest _

theorem queries_agree_cornerStore :
    let frequencies := [twoHundredHertz, 150, twoHundredHertz, 150]
    let bare : Direction := ⟨⟨0⟩, ⟨0⟩⟩
    let covered : Direction := ⟨⟨0⟩, .halfPi⟩
    let table := cornerStore.attenuationTable .sampled frequencies [bare, covered, bare]
    let together := cornerStore.attenuations .sampled frequencies
    let single := oneByOne (cornerStore.attenuation .sampled) frequencies
    let nearest : Event := .nearestBand 150 hundredHertz
    cornerStore.Reachable ∧
      table.value = [[0, 0, 0, 0], [4, 3, 4, 3], [0, 0, 0, 0]] ∧
      table.events = [nearest, nearest, .noCell bare, .noCell bare] ∧
      (together covered).value = [4, 3, 4, 3] ∧ (single covered).value = [4, 3, 4, 3] ∧
      (together bare).events = [.noCell bare, nearest, nearest] ∧
      (single bare).events =
        [.noCell bare, nearest, .noCell bare, .noCell bare, nearest, .noCell bare] ∧
      (cornerStore.attenuationTable .sampled [150] []).events = [nearest] ∧
      (cornerStore.attenuations .sampled [] bare).events = [.noCell bare] := by
  have reachable := reachable_cornerStore
  have agree := queries_agree reachable .sampled
  intro frequencies bare covered table together single nearest
  obtain ⟨values, events, each⟩ := agree frequencies [bare, covered, bare]
  obtain ⟨same, here, -, -, -⟩ := each covered
  obtain ⟨-, -, -, first, between⟩ := each bare
  have four : (together covered).value = [4, 3, 4, 3] := here.trans (by decide +kernel)
  refine ⟨reachable, values.trans (by decide +kernel), events.trans (by decide +kernel), four,
    same.symm.trans four, first.trans (by decide +kernel), between.trans (by decide +kernel), ?_, ?_⟩
  · exact (agree [150] []).2.1.trans (by decide +kernel)
  · obtain ⟨-, -, -, reports, -⟩ := (agree [] []).2.2 bare
    exact reports.trans (by decide +kernel)

end Store

end Directivity
