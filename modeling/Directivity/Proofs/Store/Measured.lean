import Directivity.Proofs.Store.Grid
import Directivity.Proofs.Store.Weights
import Mathlib.Data.Finset.Erase

/-!
Directions at a measured angle of a grid.

In the row of a measured angle, a direction is up to the last entry of the row or beyond it. Up to
there the angle is its own upper neighbour, and what was measured at another one weighs nothing.
Beyond, the row lies below the direction: the angle is its own lower neighbour, and the upper one is
the next measured angle of the circle.
-/

set_option autoImplicit false
set_option relaxedAutoImplicit false

namespace Directivity

namespace Arrangement

variable {arrangement : Arrangement} {Among : Direction → Prop} {direction : Direction}

theorem leading_withLeading_other (arrangement : Arrangement) (x : Binary64) (d : Direction) :
    arrangement.leading (arrangement.other.withLeading x d) = arrangement.leading d := by
  cases arrangement <;> rfl

theorem key_lt_key_iff {a b : Direction} (row : arrangement.leading a = arrangement.leading b) :
    arrangement.key a < arrangement.key b ↔
      (arrangement.other.leading a).rank < (arrangement.other.leading b).rank := by
  cases arrangement <;>
    · simp only [leading] at row
      simp [key, Prod.Lex.toLex_lt_toLex, leading, other, row]

theorem leading_eq_of_firstFrom {upper entry : Direction}
    (first : FirstFrom arrangement.key Among direction upper) (member : Among entry)
    (row : arrangement.leading entry = arrangement.leading direction)
    (le : arrangement.key direction ≤ arrangement.key entry) :
    arrangement.leading upper = arrangement.leading direction := by
  cases first with
  | next _ from_direction first =>
    have above := leading_le_leading (first entry member le)
    rw [row] at above
    exact Binary64.rank_injective (le_antisymm above (leading_le_leading from_direction))
  | wrapped _ below _ => exact absurd (below entry member) le.not_gt

theorem leading_eq_of_lastBefore {lower entry : Direction}
    (last : LastBefore arrangement.key Among direction lower) (member : Among entry)
    (row : arrangement.leading entry = arrangement.leading direction)
    (less : arrangement.key entry < arrangement.key direction) :
    arrangement.leading lower = arrangement.leading direction := by
  cases last with
  | previous _ before last =>
    have below := leading_le_leading (last entry member less)
    rw [row] at below
    exact Binary64.rank_injective (le_antisymm (leading_le_leading before.le) below)
  | wrapped _ above _ => exact absurd less (above entry member).not_gt

end Arrangement

theorem Cell.leading_sides {cell : Cell Record} {upper lower : Arrangement → Direction}
    (spans : cell.map Record.direction = .between upper lower) (arrangement : Arrangement) :
    let angle := cell.map fun record => arrangement.leading record.direction
    angle.upperSide arrangement =
        (arrangement.leading (upper arrangement), arrangement.leading (upper arrangement)) ∧
      angle.lowerSide arrangement =
        (arrangement.leading (lower arrangement), arrangement.leading (lower arrangement)) := by
  have angles : (cell.map fun record => arrangement.leading record.direction) =
      (Cell.between upper lower).map arrangement.leading := by
    rw [← spans]
    rfl
  dsimp only
  rw [angles]
  cases arrangement <;> exact ⟨rfl, rfl⟩

theorem Cell.leading_c00 {cell : Cell Record} {arrangement : Arrangement} {angle : Binary64}
    (above : (cell.map fun record => arrangement.leading record.direction).upperSide arrangement =
      (angle, angle)) : arrangement.leading cell.c00.direction = angle := by
  cases arrangement <;> exact congrArg Prod.fst above

namespace Store

variable {store : Store} {elevations azimuths : Finset Binary64} {arrangement : Arrangement}
  {direction : Direction}

/-- How the neighbours of a measured angle depend on the place of a direction in the row of the
angle. -/
structure RowNeighbours (elevations azimuths : Finset Binary64) (arrangement : Arrangement)
    (direction : Direction) (upper lower : Binary64) : Prop where
  mem : upper ∈ arrangement.angles elevations azimuths ∧
    lower ∈ arrangement.angles elevations azimuths
  /-- Up to the last entry of the row, the angle is its own upper neighbour. -/
  upper_eq : (∃ x ∈ arrangement.other.angles elevations azimuths,
      (arrangement.other.leading direction).rank ≤ x.rank) → upper = arrangement.leading direction
  /-- Behind the last entry, the next angle is, if there is another one. -/
  upper_next : (∀ x ∈ arrangement.other.angles elevations azimuths,
      x.rank < (arrangement.other.leading direction).rank) →
    ((arrangement.angles elevations azimuths).erase (arrangement.leading direction)).Nonempty →
      FirstFrom Binary64.rank
        (· ∈ (arrangement.angles elevations azimuths).erase (arrangement.leading direction))
        (arrangement.leading direction) upper
  /-- Behind the first entry of the row, the angle is its own lower neighbour. -/
  lower_eq : (∃ x ∈ arrangement.other.angles elevations azimuths,
      x.rank < (arrangement.other.leading direction).rank) → lower = arrangement.leading direction
  /-- Up to the first entry, the previous angle is, if there is another one. -/
  lower_previous : (∀ x ∈ arrangement.other.angles elevations azimuths,
      (arrangement.other.leading direction).rank ≤ x.rank) →
    ((arrangement.angles elevations azimuths).erase (arrangement.leading direction)).Nonempty →
      LastBefore Binary64.rank
        (· ∈ (arrangement.angles elevations azimuths).erase (arrangement.leading direction))
        (arrangement.leading direction) lower

namespace IsGrid

theorem leading_upper_ne (grid : store.IsGrid elevations azimuths) {upper : Direction}
    (first : FirstFrom arrangement.key (· ∈ store.directions) direction upper)
    (behind : ∀ x ∈ arrangement.other.angles elevations azimuths,
      x.rank < (arrangement.other.leading direction).rank)
    {other : Binary64} (measured : other ∈ arrangement.angles elevations azimuths)
    (apart : other ≠ arrangement.leading direction) :
    arrangement.leading upper ≠ arrangement.leading direction := by
  intro row
  have before : arrangement.key upper < arrangement.key direction :=
    (Arrangement.key_lt_key_iff row).mpr (behind _ (grid.leading_mem arrangement.other first.among))
  cases first with
  | next _ le _ => exact absurd before le.not_gt
  | wrapped member below first =>
    -- The column of `upper` has an entry at the other angle, which would lie both below and above.
    have entry : arrangement.withLeading other upper ∈ store.directions :=
      grid.withLeading_mem measured (grid.leading_mem arrangement.other member)
    have le := Arrangement.leading_le_leading (below _ entry).le
    have ge := Arrangement.leading_le_leading (first _ entry)
    rw [Arrangement.leading_withLeading] at le ge
    rw [row] at ge
    exact apart (Binary64.rank_injective (le_antisymm le ge))

theorem leading_lower_ne (grid : store.IsGrid elevations azimuths) {lower : Direction}
    (last : LastBefore arrangement.key (· ∈ store.directions) direction lower)
    (ahead : ∀ x ∈ arrangement.other.angles elevations azimuths,
      (arrangement.other.leading direction).rank ≤ x.rank)
    {other : Binary64} (measured : other ∈ arrangement.angles elevations azimuths)
    (apart : other ≠ arrangement.leading direction) :
    arrangement.leading lower ≠ arrangement.leading direction := by
  intro row
  have notBefore : ¬ arrangement.key lower < arrangement.key direction := fun before =>
    ((Arrangement.key_lt_key_iff row).mp before).not_ge
      (ahead _ (grid.leading_mem arrangement.other last.among))
  cases last with
  | previous _ before _ => exact notBefore before
  | wrapped member above last =>
    have entry : arrangement.withLeading other lower ∈ store.directions :=
      grid.withLeading_mem measured (grid.leading_mem arrangement.other member)
    have ge := Arrangement.leading_le_leading (above _ entry)
    have le := Arrangement.leading_le_leading (last _ entry)
    rw [Arrangement.leading_withLeading] at le ge
    rw [row] at le
    exact apart (Binary64.rank_injective (le_antisymm le ge))

theorem rowNeighbours (grid : store.IsGrid elevations azimuths) {upper lower : Direction}
    (first : FirstFrom arrangement.key (· ∈ store.directions) direction upper)
    (last : LastBefore arrangement.key (· ∈ store.directions) direction lower)
    (measured : arrangement.leading direction ∈ arrangement.angles elevations azimuths) :
    RowNeighbours elevations azimuths arrangement direction
      (arrangement.leading upper) (arrangement.leading lower) := by
  have entry : ∀ x ∈ arrangement.other.angles elevations azimuths,
      arrangement.other.withLeading x direction ∈ store.directions := fun x hx =>
    grid.withLeading_mem hx (by rwa [Arrangement.other_other])
  have row := fun x => arrangement.leading_withLeading_other x direction
  -- The other rows are a grid of their own, which does not have the leading angle of the direction.
  have angle : ∀ d, d ∈ store.directions ∧ arrangement.leading d ≠ arrangement.leading direction →
      arrangement.leading d ∈
        (arrangement.angles elevations azimuths).erase (arrangement.leading direction) :=
    fun d stored => Finset.mem_erase.mpr ⟨stored.2, grid.leading_mem arrangement stored.1⟩
  have column : ∀ x d,
      x ∈ (arrangement.angles elevations azimuths).erase (arrangement.leading direction) →
      d ∈ store.directions ∧ arrangement.leading d ≠ arrangement.leading direction →
      arrangement.withLeading x d ∈ store.directions ∧
        arrangement.leading (arrangement.withLeading x d) ≠ arrangement.leading direction := by
    rintro x d hx ⟨stored, _⟩
    obtain ⟨apart, member⟩ := Finset.mem_erase.mp hx
    refine ⟨grid.withLeading_mem member (grid.leading_mem arrangement.other stored), ?_⟩
    rwa [Arrangement.leading_withLeading]
  have absent := Finset.notMem_erase (arrangement.leading direction)
    (arrangement.angles elevations azimuths)
  refine ⟨⟨grid.leading_mem arrangement first.among, grid.leading_mem arrangement last.among⟩,
    ?_, ?_, ?_, ?_⟩
  · rintro ⟨x, hx, le⟩
    refine Arrangement.leading_eq_of_firstFrom first (entry x hx) (row x) ?_
    refine not_lt.mp fun before => ?_
    rw [Arrangement.key_lt_key_iff (row x), Arrangement.leading_withLeading] at before
    exact before.not_ge le
  · rintro behind ⟨other, ho⟩
    obtain ⟨apart, member⟩ := Finset.mem_erase.mp ho
    have leaves := grid.leading_upper_ne first behind member apart
    exact Arrangement.firstFrom_leading angle column absent
      (first.restrict (fun _ => And.left) ⟨first.among, leaves⟩)
  · rintro ⟨x, hx, less⟩
    refine Arrangement.leading_eq_of_lastBefore last (entry x hx) (row x) ?_
    rwa [Arrangement.key_lt_key_iff (row x), Arrangement.leading_withLeading]
  · rintro ahead ⟨other, ho⟩
    obtain ⟨apart, member⟩ := Finset.mem_erase.mp ho
    have leaves := grid.leading_lower_ne last ahead member apart
    exact Arrangement.lastBefore_leading angle column absent
      (last.restrict (fun _ => And.left) ⟨last.among, leaves⟩)

theorem exists_rowNeighbours (grid : store.IsGrid elevations azimuths) (arranged : store.Arranged)
    (arrangement : Arrangement) (direction : Direction)
    (measured : arrangement.leading direction ∈ arrangement.angles elevations azimuths) :
    ∃ cell upper lower, store.cell? direction = some cell ∧
      (∀ record ∈ cell.corners, record ∈ store.arena) ∧
      (cell.map fun record => arrangement.leading record.direction).upperSide arrangement =
        (upper, upper) ∧
      (cell.map fun record => arrangement.leading record.direction).lowerSide arrangement =
        (lower, lower) ∧
      RowNeighbours elevations azimuths arrangement direction upper lower := by
  choose upper lower neighbours first last using fun arrangement =>
    arranged.neighbours?_eq grid.distinct grid.size_ne_zero arrangement direction
  obtain ⟨cell, found, stored⟩ := grid.exists_cell? arranged direction
  have spans := ((arranged.cell?_eq_some_iff grid.distinct neighbours cell).mp found).2
  obtain ⟨above, below⟩ := Cell.leading_sides spans arrangement
  exact ⟨cell, _, _, found, stored, above, below,
    grid.rowNeighbours (first arrangement) (last arrangement) measured⟩

end IsGrid

theorem value_answerBy_bilinear (arranged : store.Arranged) (lib : Elementary) {cell : Cell Record}
    (found : store.cell? direction = some cell)
    (stored : ∀ record ∈ cell.corners, record ∈ store.arena) {column : Nat}
    (inside : column < store.axis.size) :
    (store.answerBy lib .bilinear direction).value.record.value column =
      (cell.map (Record.value · column)).blend lib.power lib.level
        (cell.weight lib direction .byElevation) (cell.weight lib direction .byAzimuth) := by
  have answer : (store.answerBy lib .bilinear direction).value.record =
      cell.interpolate lib direction := by
    rw [answerBy, found]
    rfl
  rw [answer]
  refine cell.value_interpolate lib direction fun record member => ?_
  rwa [arranged.lengths record (stored record member)]

/-- At a measured angle of a grid, a store has a cell whose sides are at the neighbours of the
angle. Where the upper neighbour is the angle itself, the lower one weighs nothing, and the answer
between the directions is that of the two corners at the angle alone, as long as the powers at the
other two are finite. -/
theorem measured_angle_neighbours (reachable : store.Reachable)
    (grid : store.IsGrid elevations azimuths) (arrangement : Arrangement) (direction : Direction)
    (measured : arrangement.leading direction ∈ arrangement.angles elevations azimuths) :
    ∃ cell upper lower, store.cell? direction = some cell ∧
      (cell.map fun record => arrangement.leading record.direction).upperSide arrangement =
        (upper, upper) ∧
      (cell.map fun record => arrangement.leading record.direction).lowerSide arrangement =
        (lower, lower) ∧
      RowNeighbours elevations azimuths arrangement direction upper lower ∧
      (upper = arrangement.leading direction → ∀ lib : Elementary, lib.Lawful →
        cell.weight lib direction arrangement = 0 ∧
          ∀ column < store.axis.size,
            (lib.power ((cell.lowerSide arrangement).1.value column)).isFinite →
            (lib.power ((cell.lowerSide arrangement).2.value column)).isFinite →
            (store.answerBy lib .bilinear direction).value.record.value column =
              lib.level
                (lib.power ((cell.upperSide arrangement).1.value column) *
                    (1 - cell.weight lib direction arrangement.other) +
                  lib.power ((cell.upperSide arrangement).2.value column) *
                    cell.weight lib direction arrangement.other)) := by
  obtain ⟨cell, upper, lower, found, stored, above, below, row⟩ :=
    grid.exists_rowNeighbours reachable.arranged arrangement direction measured
  refine ⟨cell, upper, lower, found, above, below, row, fun own lib lawful => ?_⟩
  have zero : cell.weight lib direction arrangement = 0 :=
    Cell.weight_eq_zero lawful ((Cell.leading_c00 above).trans own)
  refine ⟨zero, fun column inside finite₁ finite₂ => ?_⟩
  have blended := Cell.blend_of_weight_eq_zero lawful (cell.isWeight_weight lawful direction) zero
    (cell.map (Record.value · column)) (by
      rw [Cell.lowerSide_map]
      exact ⟨finite₁, finite₂⟩)
  rw [Cell.upperSide_map] at blended
  exact (value_answerBy_bilinear reachable.arranged lib found stored inside).trans blended

/-- Four records: `30` dB at elevation `0`, and `10` dB and `20` dB at elevation `π / 2`. -/
def quarterRun : List Operation :=
  [.insert ⟨⟨⟨0⟩, ⟨0⟩⟩, #[30]⟩, .insert ⟨⟨⟨0⟩, .halfPi⟩, #[30]⟩, .insert ⟨⟨.halfPi, ⟨0⟩⟩, #[10]⟩,
    .insert ⟨⟨.halfPi, .halfPi⟩, #[20]⟩]

def quarterStore : Store :=
  (blank ⟨#[hundredHertz], BandAxis.columnsOf [hundredHertz], Nat.one_pos⟩ .bilinear).run quarterRun

theorem reachable_quarterStore : quarterStore.Reachable :=
  @reachable_run_blank [hundredHertz] _ rfl .bilinear quarterRun

theorem isGrid_quarterStore : quarterStore.IsGrid {⟨0⟩, .halfPi} {⟨0⟩, .halfPi} := by
  have directions : quarterStore.directions =
      [⟨⟨0⟩, ⟨0⟩⟩, ⟨⟨0⟩, .halfPi⟩, ⟨.halfPi, ⟨0⟩⟩, ⟨.halfPi, .halfPi⟩] := by decide +kernel
  exact .of_directions directions (by decide) (by decide) (by decide) (by decide) (by decide)

theorem measured_angle_neighbours_quarterRun :
    quarterStore.Reachable ∧ quarterStore.IsGrid {⟨0⟩, .halfPi} {⟨0⟩, .halfPi} ∧
      Elementary.sampled.Lawful ∧
      (∃ cell, quarterStore.cell? ⟨.halfPi, -.quarterPi⟩ = some cell ∧
        cell.c00.direction.elevation = .halfPi ∧ cell.c10.direction.elevation = ⟨0⟩ ∧
        cell.weight .sampled ⟨.halfPi, -.quarterPi⟩ .byElevation = 0 ∧
        (quarterStore.answerBy .sampled .bilinear ⟨.halfPi, -.quarterPi⟩).value.record.value 0 =
          Elementary.sampled.level 55) ∧
      ∃ cell, quarterStore.cell? ⟨.halfPi, .pi⟩ = some cell ∧
        cell.c00.direction.elevation = ⟨0⟩ ∧ cell.c10.direction.elevation = .halfPi := by
  have reachable := reachable_quarterStore
  have grid := isGrid_quarterStore
  have lawful := Elementary.lawful_sampled
  have alone : ∀ x ∈ ({⟨0⟩, .halfPi} : Finset Binary64).erase .halfPi, x = ⟨0⟩ := by decide
  have other : (({⟨0⟩, .halfPi} : Finset Binary64).erase .halfPi).Nonempty := ⟨⟨0⟩, by decide⟩
  refine ⟨reachable, grid, lawful, ?_, ?_⟩
  · obtain ⟨cell, upper, lower, found, above, below, row, own⟩ :=
      measured_angle_neighbours reachable grid .byElevation ⟨.halfPi, -.quarterPi⟩ (by decide)
    have corners : (quarterStore.cell? ⟨.halfPi, -.quarterPi⟩).map (fun cell =>
        (cell.corners.map (Record.value · 0),
          cell.weight .sampled ⟨.halfPi, -.quarterPi⟩ .byAzimuth)) =
        some ([10, 30, 30, 20], ⟨0x3FE0000000000000⟩) := by decide +kernel
    rw [found, Option.map_some, Option.some_inj, Prod.mk.injEq] at corners
    obtain ⟨values, half⟩ := corners
    simp only [Cell.corners, List.map_cons, List.map_nil, List.cons.injEq] at values
    obtain ⟨h00, h10, h11, h01, -⟩ := values
    have up := row.upper_eq ⟨⟨0⟩, by decide, by decide⟩
    obtain ⟨zero, answers⟩ := own up .sampled lawful
    have answer := answers 0 (by decide +kernel)
    simp only [Cell.lowerSide, Cell.upperSide, Arrangement.other, h00, h10, h11, h01, half] at answer
    have finite : (Elementary.sampled.power 30).isFinite := by decide +kernel
    have mean : Elementary.sampled.power 10 * (1 - ⟨0x3FE0000000000000⟩) +
        Elementary.sampled.power 20 * ⟨0x3FE0000000000000⟩ = 55 := by decide +kernel
    rw [mean] at answer
    exact ⟨cell, found, (congrArg Prod.fst above).trans up,
      (congrArg Prod.fst below).trans (alone _ (row.lower_previous (by decide) other).among), zero,
      answer finite finite⟩
  · obtain ⟨cell, upper, lower, found, above, below, row, _⟩ :=
      measured_angle_neighbours reachable grid .byElevation ⟨.halfPi, .pi⟩ (by decide)
    exact ⟨cell, found,
      (congrArg Prod.fst above).trans (alone _ (row.upper_next (by decide) other).among),
      (congrArg Prod.fst below).trans (row.lower_eq ⟨⟨0⟩, by decide, by decide⟩)⟩

/-- Four records at once: nothing is attenuated at elevation `0`, and everything at
elevation `1`. -/
def unevenRun : List Operation :=
  [.insertAll [⟨⟨⟨0⟩, ⟨0⟩⟩, #[0]⟩, ⟨⟨⟨0⟩, ⟨0x3FF0000000000000⟩⟩, #[0]⟩,
    ⟨⟨⟨0x3FF0000000000000⟩, ⟨0⟩⟩, #[.infinity]⟩,
    ⟨⟨⟨0x3FF0000000000000⟩, ⟨0x3FF0000000000000⟩⟩, #[.infinity]⟩]]

/-- A measured angle is not always its own upper neighbour: at azimuth `2`, past the last azimuth of
elevation `0`, it is not, nor is azimuth `0` at elevation `2`. And weight zero does not keep out an
infinite level: at azimuth `-0.5`, where elevation `0` is its own upper neighbour, the answer is a
NaN. -/
theorem measured_angle_leaves_unevenRun :
    ∃ store : Store, store.Reachable ∧
      store.IsGrid {⟨0⟩, ⟨0x3FF0000000000000⟩} {⟨0⟩, ⟨0x3FF0000000000000⟩} ∧
      (∃ cell, store.cell? ⟨⟨0⟩, ⟨0x4000000000000000⟩⟩ = some cell ∧
        cell.c00.direction.elevation ≠ ⟨0⟩) ∧
      (∃ cell, store.cell? ⟨⟨0x4000000000000000⟩, ⟨0⟩⟩ = some cell ∧
        cell.c00.direction.azimuth ≠ ⟨0⟩) ∧
      ∀ lib : Elementary, lib.Lawful → lib.exp10 .infinity = .infinity →
        (store.answerBy lib .bilinear ⟨⟨0⟩, ⟨0xBFE0000000000000⟩⟩).value.record.value 0 = .nan := by
  obtain ⟨store, reachable, size, grid, offered⟩ :=
    exists_reachable_grid unevenRun {⟨0⟩, ⟨0x3FF0000000000000⟩} {⟨0⟩, ⟨0x3FF0000000000000⟩}
      (by decide) (by decide) (by decide) (by decide) (by decide) (by decide)
  have infinite : ∀ record ∈ store.arena, record.direction.elevation ≠ ⟨0⟩ →
      record.value 0 = .infinity := by
    intro record member
    exact (by decide +kernel : ∀ record ∈ unevenRun.flatMap Operation.offered,
      record.direction.elevation ≠ ⟨0⟩ → record.value 0 = .infinity) record ((offered record).mp member)
  have other : (({⟨0⟩, ⟨0x3FF0000000000000⟩} : Finset Binary64).erase ⟨0⟩).Nonempty :=
    ⟨⟨0x3FF0000000000000⟩, by decide⟩
  refine ⟨store, reachable, grid, ?_, ?_, fun lib lawful tenfold => ?_⟩
  · obtain ⟨cell, upper, lower, found, _, above, _, row⟩ := grid.exists_rowNeighbours
      reachable.arranged .byElevation ⟨⟨0⟩, ⟨0x4000000000000000⟩⟩ (by decide)
    exact ⟨cell, found, (congrArg Prod.fst above).trans_ne
      (Finset.ne_of_mem_erase (row.upper_next (by decide) other).among)⟩
  · obtain ⟨cell, upper, lower, found, _, above, _, row⟩ := grid.exists_rowNeighbours
      reachable.arranged .byAzimuth ⟨⟨0x4000000000000000⟩, ⟨0⟩⟩ (by decide)
    exact ⟨cell, found, (congrArg Prod.fst above).trans_ne
      (Finset.ne_of_mem_erase (row.upper_next (by decide) other).among)⟩
  · obtain ⟨cell, upper, lower, found, stored, above, below, row⟩ := grid.exists_rowNeighbours
      reachable.arranged .byElevation ⟨⟨0⟩, ⟨0xBFE0000000000000⟩⟩ (by decide)
    have zero : cell.weight lib ⟨⟨0⟩, ⟨0xBFE0000000000000⟩⟩ .byElevation = 0 :=
      Cell.weight_eq_zero lawful
        ((congrArg Prod.fst above).trans (row.upper_eq ⟨⟨0⟩, by decide, by decide⟩))
    have level : cell.c10.value 0 = .infinity := by
      refine infinite cell.c10 (stored _ (by simp [Cell.corners])) ?_
      exact (congrArg Prod.fst below).trans_ne
        (Finset.ne_of_mem_erase (row.lower_previous (by decide) other).among)
    have power : lib.power .infinity = .infinity := by
      rw [Elementary.power, show (.infinity : Binary64) / 10 = .infinity by decide +kernel, tenfold]
    have inside : 0 < store.axis.size := by rw [size]; exact Nat.one_pos
    rw [value_answerBy_bilinear reachable.arranged lib found stored inside]
    refine Cell.blend_of_not_isFinite lawful zero _ (.inl ?_)
    rw [Cell.lowerSide_map]
    show ¬ (lib.power (cell.c10.value 0)).isFinite
    rw [level, power]
    decide

end Store

end Directivity
