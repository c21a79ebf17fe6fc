import Directivity.Proofs.BandAxis.Nearest
import Directivity.Proofs.Store.Blend
import Directivity.Proofs.Store.Queries

/-!
Asking a store for the directions of its records.

A direction of the store is its own neighbour above in both arrangements, so its record is the first
corner of the cell around it, wherever in the store it stands. No corner is nearer than the first
one, as that one is no distance away, or none that is a number. And both parts that the other
corners have in a blend are zero, whatever the sides of the cell are.
-/

set_option autoImplicit false
set_option relaxedAutoImplicit false

namespace Directivity

theorem Direction.distance_not_lt_zero {lib : Elementary} (unsigned : ∀ x, ¬ lib.acos x < 0)
    (a b : Direction) : ¬ a.distance lib b < 0 := by
  unfold distance
  split_ifs
  · decide +kernel
  · exact unsigned _

theorem Cell.nearestCorner_eq_c00 {distance : Record → Binary64} {cell : Cell Record}
    (least : ∀ record ∈ cell.corners, ¬ distance record < distance cell.c00)
    (within : distance cell.c00 < .largest ∨
      ∀ record ∈ cell.corners, ¬ distance record < .largest) :
    cell.nearestCorner distance = cell.c00 := by
  -- Whichever bound the first corner leaves, no later corner falls below it.
  have kept : ∃ bound, (∀ record ∈ cell.corners, ¬ distance record < bound) ∧
      (if distance cell.c00 < .largest then (cell.c00, distance cell.c00) else (cell.c00, .largest)) =
        (cell.c00, bound) := by
    rcases within with near | far
    · exact ⟨_, least, if_pos near⟩
    · exact ⟨_, far, if_neg (far _ List.mem_cons_self)⟩
  obtain ⟨bound, above, first⟩ := kept
  simp only [corners, List.forall_mem_cons] at above
  obtain ⟨-, h10, h11, h01, -⟩ := above
  simp [nearestCorner, corners, first, h10, h11, h01]

namespace BandAxis

variable {bands : List Binary64} {axis : BandAxis}

theorem mapM_value_column (valid : ofList bands = .ok axis) {record : Record}
    (size : record.attenuation.size = axis.size) :
    (axis.toList.mapM fun band => return record.value (← axis.column band) : Logged _) =
      pure record.attenuation.toList := by
  have listed : axis.toList = (List.finRange axis.bands.size).map axis.band :=
    (List.map_getElem_finRange axis.bands.toList).symm
  have values : ((List.finRange axis.bands.size).map fun column => record.value column.val) =
      record.attenuation.toList := by
    apply List.ext_getElem
    · rw [List.length_map, List.length_finRange, Array.length_toList]
      exact size.symm
    · intro column inside inside'
      have inside : column < record.attenuation.size := inside'
      simp [Record.value, inside]
  rw [listed, List.mapM_map, ← values, ← List.mapM_pure]
  congr 1
  funext column
  show (do return record.value (← axis.column (axis.band column)) : Logged _) = _
  rw [column_band valid, pure_bind]

end BandAxis

namespace Store

variable {store : Store} {record : Record} {cell : Cell Record} {lib : Elementary}

theorem Arranged.c00_eq (arranged : store.Arranged) (distinct : store.directions.Nodup)
    (member : record ∈ store.arena) (found : store.cell? record.direction = some cell) :
    cell.c00 = record := by
  have known : store.HasRecord record.direction record := ⟨member, rfl⟩
  have nonempty : store.size ≠ 0 := (Array.size_pos_of_mem member).ne'
  choose upper lower neighbours first last using fun arrangement =>
    arranged.neighbours?_eq distinct nonempty arrangement record.direction
  obtain ⟨stored, spans⟩ := (arranged.cell?_eq_some_iff distinct neighbours cell).mp found
  have own : ∀ arrangement, upper arrangement = record.direction := fun arrangement =>
    (first arrangement).eq_of_among arrangement.key_injective known.mem_directions
  have corner : cell.c00.direction = record.direction := by
    have corner := congrArg Cell.c00 spans
    rwa [Cell.between, own, own] at corner
  have here : store.HasRecord record.direction cell.c00 := ⟨stored _ List.mem_cons_self, corner⟩
  exact here.unique distinct known

/-- Asked for the nearest direction, a store answers for the direction of a record by the record,
and for all bands by its values, and reports nothing. -/
def Recalls (store : Store) (lib : Elementary) (record : Record) : Prop :=
  store.answerBy lib .nearest record.direction = pure (.stored record) ∧
    (store.interpolation = .nearest →
      store.attenuations lib store.axis.toList record.direction = pure record.attenuation.toList)

theorem nearestCorner_own (unsigned : ∀ x, ¬ lib.acos x < 0)
    (defined : cell.c00.direction.IsDefined ∨ lib.KeepsNaN) :
    cell.nearestCorner (fun corner => cell.c00.direction.distance lib corner.direction) = cell.c00 := by
  by_cases number : cell.c00.direction.IsDefined
  · have zero := Direction.distance_self_eq_zero lib number
    apply Cell.nearestCorner_eq_c00
    · intro corner _
      rw [zero]
      exact Direction.distance_not_lt_zero unsigned _ _
    · rw [zero]
      exact .inl (by decide +kernel)
  · have undefined := Direction.isNaN_distance (defined.resolve_left number) number
    apply Cell.nearestCorner_eq_c00
    · intro corner _
      exact Binary64.not_lt_of_isNaN (.inl (undefined _))
    · exact .inr fun corner _ => Binary64.not_lt_of_isNaN (.inl (undefined _))

theorem recalls_of_cell (reachable : store.Reachable) (distinct : store.directions.Nodup)
    (member : record ∈ store.arena) (found : store.cell? record.direction = some cell)
    (unsigned : ∀ x, ¬ lib.acos x < 0) (defined : record.direction.IsDefined ∨ lib.KeepsNaN) :
    store.Recalls lib record := by
  have arranged := reachable.arranged
  obtain rfl := arranged.c00_eq distinct member found
  have answer : store.answerBy lib .nearest cell.c00.direction = pure (.stored cell.c00) := by
    rw [answerBy, found]
    show pure (cell.answer lib cell.c00.direction .nearest) = _
    rw [Cell.answer, nearestCorner_own unsigned defined]
  refine ⟨answer, fun nearest => ?_⟩
  obtain ⟨bands, valid⟩ := reachable.ofList_axis
  rw [attenuations, Store.answer, nearest, answer, pure_bind]
  exact BandAxis.mapM_value_column valid (arranged.lengths _ member)

/-- Asked for the nearest direction, a store recalls every record whose cell is complete, and so, if
it measures a grid, every record. Of the elementary functions it only matters that no arc cosine is
below zero, as long as the angles are numbers. -/
theorem nearest_recalls (reachable : store.Reachable) (unsigned : ∀ x, ¬ lib.acos x < 0) :
    (∀ elevations azimuths, store.IsGrid elevations azimuths →
      (∀ x ∈ elevations, x.isNaN = false) → (∀ x ∈ azimuths, x.isNaN = false) →
        ∀ record ∈ store.arena, store.Recalls lib record) ∧
      (store.directions.Nodup → ∀ record ∈ store.arena,
        (store.cell? record.direction).isSome →
          record.direction.IsDefined ∨ lib.KeepsNaN → store.Recalls lib record) := by
  constructor
  · intro elevations azimuths grid he ha record member
    obtain ⟨cell, found, _⟩ := grid.exists_cell? reachable.arranged record.direction
    have known : record.direction ∈ store.directions := HasRecord.mem_directions ⟨member, rfl⟩
    obtain ⟨elevation, azimuth⟩ := (grid.mem_iff _).mp known
    exact recalls_of_cell reachable grid.distinct member found unsigned
      (.inl ⟨he _ elevation, ha _ azimuth⟩)
  · intro distinct record member complete defined
    obtain ⟨cell, found⟩ := Option.isSome_iff_exists.mp complete
    exact recalls_of_cell reachable distinct member found unsigned defined

theorem Reachable.setInterpolation (reachable : store.Reachable) (interpolation : Interpolation) :
    (store.setInterpolation interpolation).Reachable := by
  obtain ⟨options, identifier, bands, created, operations, valid, rfl⟩ := reachable
  refine ⟨options, identifier, bands, created, operations ++ [.setInterpolation interpolation],
    valid, ?_⟩
  rw [run, List.foldl_append]
  rfl

theorem IsGrid.setInterpolation {elevations azimuths : Finset Binary64}
    (grid : store.IsGrid elevations azimuths) (interpolation : Interpolation) :
    (store.setInterpolation interpolation).IsGrid elevations azimuths :=
  ⟨grid.elevations_nonempty, grid.azimuths_nonempty, grid.distinct, grid.mem_iff⟩

/-- Four records of different levels at once, towards directions of one value: all angles are zeros,
with and without a sign. -/
def zerosRun : List Operation :=
  [.insertAll [⟨⟨⟨0⟩, ⟨0⟩⟩, #[0]⟩, ⟨⟨⟨0⟩, ⟨0x8000000000000000⟩⟩, #[10]⟩,
    ⟨⟨⟨0x8000000000000000⟩, ⟨0⟩⟩, #[20]⟩,
    ⟨⟨⟨0x8000000000000000⟩, ⟨0x8000000000000000⟩⟩, #[30]⟩]]

theorem exists_zerosRun :
    ∃ store : Store, store.Reachable ∧ store.axis.size = 1 ∧
      store.IsGrid {⟨0⟩, ⟨0x8000000000000000⟩} {⟨0⟩, ⟨0x8000000000000000⟩} ∧
      ∀ record, record ∈ store.arena ↔ record ∈ zerosRun.flatMap Operation.offered :=
  exists_reachable_grid zerosRun _ _ (by decide) (by decide) (by decide) (by decide) (by decide)
    (by decide)

/-- Two records at an elevation that is no number. -/
def undefinedRun : List Operation :=
  [.insertAll [⟨⟨⟨0⟩, ⟨0⟩⟩, #[0]⟩, ⟨⟨⟨0⟩, .halfPi⟩, #[10]⟩, ⟨⟨.nan, ⟨0⟩⟩, #[20]⟩,
    ⟨⟨.nan, .halfPi⟩, #[30]⟩]]

theorem nearest_recalls_zeros_and_undefined :
    (∀ x, ¬ Elementary.sampled.acos x < 0) ∧
      (∃ store : Store, store.Reachable ∧
        store.IsGrid {⟨0⟩, ⟨0x8000000000000000⟩} {⟨0⟩, ⟨0x8000000000000000⟩} ∧
        store.attenuations .sampled store.axis.toList ⟨⟨0x8000000000000000⟩, ⟨0⟩⟩ = pure [20]) ∧
      ∃ store : Store, store.Reachable ∧ store.directions.Nodup ∧
        (store.cell? ⟨.nan, ⟨0⟩⟩).isSome ∧ Elementary.sampled.KeepsNaN ∧
        store.attenuations .sampled store.axis.toList ⟨.nan, ⟨0⟩⟩ = pure [20] := by
  have lawful := Elementary.lawful_sampled
  have unsigned : ∀ x, ¬ Elementary.sampled.acos x < 0 := fun x =>
    Binary64.not_lt_zero (lawful.acos_plus x)
  refine ⟨unsigned, ?_, ?_⟩
  · obtain ⟨store, reachable, -, grid, offered⟩ := exists_zerosRun
    have reachable' := reachable.setInterpolation .nearest
    have grid' := grid.setInterpolation .nearest
    obtain ⟨recalls, -⟩ := nearest_recalls reachable' unsigned
    have third := recalls _ _ grid' (by decide) (by decide) ⟨⟨⟨0x8000000000000000⟩, ⟨0⟩⟩, #[20]⟩
      ((offered _).mpr (.tail _ (.tail _ (.head _))))
    exact ⟨_, reachable', grid', third.2 rfl⟩
  · obtain ⟨store, reachable, -, grid, offered⟩ :=
      exists_reachable_grid undefinedRun {⟨0⟩, .nan} {⟨0⟩, .halfPi} (by decide) (by decide)
        (by decide) (by decide) (by decide) (by decide)
    have reachable' := reachable.setInterpolation .nearest
    have grid' := grid.setInterpolation .nearest
    obtain ⟨cell, found, -⟩ := grid'.exists_cell? reachable'.arranged ⟨.nan, ⟨0⟩⟩
    have complete := Option.isSome_iff_exists.mpr ⟨cell, found⟩
    obtain ⟨-, recalls⟩ := nearest_recalls reachable' unsigned
    have third := recalls grid'.distinct ⟨⟨.nan, ⟨0⟩⟩, #[20]⟩
      ((offered _).mpr (.tail _ (.tail _ (.head _)))) complete (.inr lawful.keepsNaN)
    exact ⟨_, reachable', grid'.distinct, complete, lawful.keepsNaN, third.2 rfl⟩

/-- Between the directions, what a store answers for the direction of a record: the record is the
first corner of its cell, the opposite sides weigh nothing, and with finite powers at the other
corners the answer is the level of the record, passed through its power; in real numbers, the level
itself. -/
def BlendsAlone (store : Store) (lib : Elementary) (record : Record) : Prop :=
  ∃ cell answer, store.cell? record.direction = some cell ∧ cell.c00 = record ∧
    let weight := cell.weight lib record.direction
    (∀ arrangement, weight arrangement = 0) ∧
      store.answerBy lib .bilinear record.direction = pure (.interpolated answer) ∧
      answer.direction = record.direction ∧ answer.attenuation.size = store.axis.size ∧
      (∀ column < store.axis.size,
        (∀ corner ∈ [cell.c10, cell.c11, cell.c01], (lib.power (corner.value column)).isFinite) →
          answer.value column = lib.level (lib.power (record.value column))) ∧
      ∀ (power level : ℝ → ℝ), IsScale power level → ∀ (reading : Binary64 → ℝ) (column : Nat),
        (cell.map fun corner => reading (corner.value column)).blend power level
          (weight .byElevation).toReal (weight .byAzimuth).toReal = reading (record.value column)

theorem blendsAlone_of_cell (reachable : store.Reachable) (distinct : store.directions.Nodup)
    (member : record ∈ store.arena) (found : store.cell? record.direction = some cell)
    (lawful : lib.Lawful) : store.BlendsAlone lib record := by
  have arranged := reachable.arranged
  obtain rfl := arranged.c00_eq distinct member found
  have stored := cell?_mem found
  have zero : ∀ arrangement, cell.weight lib cell.c00.direction arrangement = 0 := fun _ =>
    Cell.weight_eq_zero lawful rfl
  have answer : store.answerBy lib .bilinear cell.c00.direction =
      pure (.interpolated (cell.interpolate lib cell.c00.direction)) := by
    rw [answerBy, found]
    rfl
  refine ⟨cell, cell.interpolate lib cell.c00.direction, found, rfl, zero, answer, rfl, ?_, ?_, ?_⟩
  · have size := arranged.size_answerBy lib .bilinear cell.c00.direction
    rwa [answer] at size
  · intro column inside finite
    simp only [List.forall_mem_cons] at finite
    obtain ⟨h10, h11, h01, -⟩ := finite
    have value := value_answerBy_bilinear arranged lib found stored inside
    rw [answer] at value
    exact value.trans (Cell.blend_of_weights_eq_zero lawful zero h10 h11 h01)
  · intro power level scale reading column
    rw [zero, zero, Binary64.toReal_zero]
    simp [Cell.blend, Cell.map, scale.level_power _]

/-- Between the directions, a store gives every record whose cell is complete its own level, and so,
if it measures a grid, every record. -/
theorem bilinear_recalls (reachable : store.Reachable) (lawful : lib.Lawful) :
    (∀ elevations azimuths, store.IsGrid elevations azimuths →
      ∀ record ∈ store.arena, store.BlendsAlone lib record) ∧
      (store.directions.Nodup → ∀ record ∈ store.arena,
        (store.cell? record.direction).isSome → store.BlendsAlone lib record) := by
  constructor
  · intro elevations azimuths grid record member
    obtain ⟨cell, found, _⟩ := grid.exists_cell? reachable.arranged record.direction
    exact blendsAlone_of_cell reachable grid.distinct member found lawful
  · intro distinct record member complete
    obtain ⟨cell, found⟩ := Option.isSome_iff_exists.mp complete
    exact blendsAlone_of_cell reachable distinct member found lawful

theorem bilinear_recalls_zerosRun :
    ∃ store : Store, store.Reachable ∧ Elementary.sampled.Lawful ∧
      store.IsGrid {⟨0⟩, ⟨0x8000000000000000⟩} {⟨0⟩, ⟨0x8000000000000000⟩} ∧
      ∃ answer : Record,
        store.answerBy .sampled .bilinear ⟨⟨0x8000000000000000⟩, ⟨0⟩⟩ =
            pure (.interpolated answer) ∧
          answer.value 0 = 20 := by
  have lawful := Elementary.lawful_sampled
  obtain ⟨store, reachable, size, grid, offered⟩ := exists_zerosRun
  have finite : ∀ record ∈ store.arena, (Elementary.sampled.power (record.value 0)).isFinite := by
    intro record member
    exact (by decide +kernel : ∀ record ∈ zerosRun.flatMap Operation.offered,
      (Elementary.sampled.power (record.value 0)).isFinite) record ((offered record).mp member)
  obtain ⟨blends, -⟩ := bilinear_recalls reachable lawful
  obtain ⟨cell, answer, found, -, -, answered, -, -, values, -⟩ :=
    blends _ _ grid ⟨⟨⟨0x8000000000000000⟩, ⟨0⟩⟩, #[20]⟩
      ((offered _).mpr (.tail _ (.tail _ (.head _))))
  refine ⟨store, reachable, lawful, grid, answer, answered, ?_⟩
  have level := values 0 (by rw [size]; exact Nat.one_pos) fun corner others =>
    finite corner (cell?_mem found corner (List.mem_cons_of_mem _ others))
  have twenty : Elementary.sampled.level (Elementary.sampled.power 20) = 20 := by decide +kernel
  exact level.trans twenty

end Store

end Directivity
