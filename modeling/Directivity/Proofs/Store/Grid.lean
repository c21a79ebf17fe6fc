import Directivity.Proofs.Store.Neighbours
import Mathlib.Data.Finset.Insert

/-!
Stores that measure a grid: every elevation of one set with every azimuth of another.

The neighbours of a direction come from a lexicographic order, but in a grid any elevation goes with
any azimuth. So the leading angles of the neighbours are the neighbours of the leading angle in its
own circle, wherever the direction stands in its row, and the four corners are always there.
-/

set_option autoImplicit false
set_option relaxedAutoImplicit false

namespace Directivity

namespace Arrangement

def withLeading : Arrangement → Binary64 → Direction → Direction
  | .byElevation, angle, d => ⟨angle, d.azimuth⟩
  | .byAzimuth, angle, d => ⟨d.elevation, angle⟩

@[simp]
theorem leading_withLeading (arrangement : Arrangement) (angle : Binary64) (d : Direction) :
    arrangement.leading (arrangement.withLeading angle d) = angle := by
  cases arrangement <;> rfl

def angles {α : Type} : Arrangement → α → α → α
  | .byElevation, elevations, _ => elevations
  | .byAzimuth, _, azimuths => azimuths

section Rows

variable {arrangement : Arrangement} {Among : Direction → Prop} {Angle : Binary64 → Prop}
  {direction : Direction}

private theorem rank_lt_of_le {x y : Binary64} (hx : Angle x) (hy : ¬ Angle y)
    (le : x.rank ≤ y.rank) : x.rank < y.rank := by
  refine lt_of_le_of_ne le fun same => hy ?_
  rwa [← Binary64.rank_injective same]

theorem firstFrom_leading {upper : Direction} (angle : ∀ d, Among d → Angle (arrangement.leading d))
    (row : ∀ x d, Angle x → Among d → Among (arrangement.withLeading x d))
    (apart : ¬ Angle (arrangement.leading direction))
    (first : FirstFrom arrangement.key Among direction upper) :
    FirstFrom Binary64.rank Angle (arrangement.leading direction) (arrangement.leading upper) := by
  have least : ∀ x, arrangement.key upper ≤ arrangement.key (arrangement.withLeading x upper) →
      (arrangement.leading upper).rank ≤ x.rank := by
    intro x le
    simpa using leading_le_leading le
  cases first with
  | next member le first =>
    refine .next (angle _ member) (leading_le_leading le) ?_
    intro x hx above
    have less : (arrangement.leading direction).rank < x.rank :=
      lt_of_le_of_ne above fun same => apart (Binary64.rank_injective same ▸ hx)
    -- In the row of `upper`, the angle `x` is there too, and so comes no earlier than `upper`.
    rw [← leading_withLeading arrangement x upper] at less
    exact least x (first _ (row x upper hx member) (key_lt_key_of_leading less).le)
  | wrapped member below first =>
    refine .wrapped (angle _ member) ?_ ?_
    · intro x hx
      have le := leading_le_leading (below _ (row x upper hx member)).le
      rw [leading_withLeading] at le
      exact rank_lt_of_le hx apart le
    · intro x hx
      exact least x (first _ (row x upper hx member))

theorem lastBefore_leading {lower : Direction}
    (angle : ∀ d, Among d → Angle (arrangement.leading d))
    (row : ∀ x d, Angle x → Among d → Among (arrangement.withLeading x d))
    (apart : ¬ Angle (arrangement.leading direction))
    (last : LastBefore arrangement.key Among direction lower) :
    LastBefore Binary64.rank Angle (arrangement.leading direction) (arrangement.leading lower) := by
  have greatest : ∀ x, arrangement.key (arrangement.withLeading x lower) ≤ arrangement.key lower →
      x.rank ≤ (arrangement.leading lower).rank := by
    intro x le
    simpa using leading_le_leading le
  cases last with
  | previous member lt last =>
    have less := rank_lt_of_le (angle _ member) apart (leading_le_leading lt.le)
    refine .previous (angle _ member) less ?_
    intro x hx below
    rw [← leading_withLeading arrangement x lower] at below
    exact greatest x (last _ (row x lower hx member) (key_lt_key_of_leading below))
  | wrapped member above last =>
    refine .wrapped (angle _ member) ?_ ?_
    · intro x hx
      have le := leading_le_leading (above _ (row x lower hx member))
      rwa [leading_withLeading] at le
    · intro x hx
      exact greatest x (last _ (row x lower hx member))

end Rows

end Arrangement

theorem Cell.answer_ne_uncovered (lib : Elementary) (cell : Cell Record) (direction : Direction)
    (interpolation : Interpolation) (record : Record) :
    cell.answer lib direction interpolation ≠ .uncovered record := by
  cases interpolation <;> exact Answer.noConfusion

namespace Store

variable {store : Store} {elevations azimuths : Finset Binary64}

/-- The store has every direction of these elevations and azimuths once, and no others. -/
structure IsGrid (store : Store) (elevations azimuths : Finset Binary64) : Prop where
  elevations_nonempty : elevations.Nonempty
  azimuths_nonempty : azimuths.Nonempty
  distinct : store.directions.Nodup
  mem_iff : ∀ direction, direction ∈ store.directions ↔
    direction.elevation ∈ elevations ∧ direction.azimuth ∈ azimuths

namespace IsGrid

theorem of_directions {directions : List Direction} (same : store.directions = directions)
    (elevation : elevations.Nonempty) (azimuth : azimuths.Nonempty) (distinct : directions.Nodup)
    (only : ∀ d ∈ directions, d.elevation ∈ elevations ∧ d.azimuth ∈ azimuths)
    (all : ∀ x ∈ elevations, ∀ y ∈ azimuths, ⟨x, y⟩ ∈ directions) :
    store.IsGrid elevations azimuths where
  elevations_nonempty := elevation
  azimuths_nonempty := azimuth
  distinct := same ▸ distinct
  mem_iff d := by
    rw [same]
    exact ⟨only d, fun both => all _ both.1 _ both.2⟩

theorem size_ne_zero (grid : store.IsGrid elevations azimuths) : store.size ≠ 0 := by
  obtain ⟨elevation, he⟩ := grid.elevations_nonempty
  obtain ⟨azimuth, ha⟩ := grid.azimuths_nonempty
  have member := (grid.mem_iff ⟨elevation, azimuth⟩).mpr ⟨he, ha⟩
  have positive := List.length_pos_of_mem member
  rw [length_directions] at positive
  exact positive.ne'

theorem leading_mem (grid : store.IsGrid elevations azimuths) (arrangement : Arrangement)
    {d : Direction} (member : d ∈ store.directions) :
    arrangement.leading d ∈ arrangement.angles elevations azimuths := by
  have both := (grid.mem_iff d).mp member
  cases arrangement
  · exact both.1
  · exact both.2

theorem withLeading_mem (grid : store.IsGrid elevations azimuths) {arrangement : Arrangement}
    {x : Binary64} {d : Direction} (hx : x ∈ arrangement.angles elevations azimuths)
    (hd : arrangement.other.leading d ∈ arrangement.other.angles elevations azimuths) :
    arrangement.withLeading x d ∈ store.directions := by
  rw [grid.mem_iff]
  cases arrangement
  · exact ⟨hx, hd⟩
  · exact ⟨hd, hx⟩

theorem exists_cell? (grid : store.IsGrid elevations azimuths) (arranged : store.Arranged)
    (direction : Direction) :
    ∃ cell, store.cell? direction = some cell ∧ ∀ record ∈ cell.corners, record ∈ store.arena := by
  choose upper lower neighbours first last using fun arrangement =>
    arranged.neighbours?_eq grid.distinct grid.size_ne_zero arrangement direction
  have above := fun arrangement => (grid.mem_iff _).mp (first arrangement).among
  have below := fun arrangement => (grid.mem_iff _).mp (last arrangement).among
  have corners : (store.cell? direction).isSome := by
    rw [arranged.isSome_cell?_iff grid.distinct neighbours]
    simp [Cell.corners, Cell.between, grid.mem_iff, above, below]
  obtain ⟨cell, found⟩ := Option.isSome_iff_exists.mp corners
  exact ⟨cell, found, ((arranged.cell?_eq_some_iff grid.distinct neighbours cell).mp found).1⟩

theorem cell?_eq_some_iff (grid : store.IsGrid elevations azimuths) (arranged : store.Arranged)
    {direction : Direction} (elevation : direction.elevation ∉ elevations)
    (azimuth : direction.azimuth ∉ azimuths) :
    ∃ e₁ e₂ a₁ a₂,
      FirstFrom Binary64.rank (· ∈ elevations) direction.elevation e₁ ∧
        LastBefore Binary64.rank (· ∈ elevations) direction.elevation e₂ ∧
        FirstFrom Binary64.rank (· ∈ azimuths) direction.azimuth a₁ ∧
        LastBefore Binary64.rank (· ∈ azimuths) direction.azimuth a₂ ∧
        ∀ cell, store.cell? direction = some cell ↔
          (∀ record ∈ cell.corners, record ∈ store.arena) ∧
            cell.map Record.direction = ⟨⟨e₁, a₁⟩, ⟨e₂, a₁⟩, ⟨e₂, a₂⟩, ⟨e₁, a₂⟩⟩ := by
  choose upper lower neighbours first last using fun arrangement =>
    arranged.neighbours?_eq grid.distinct grid.size_ne_zero arrangement direction
  have row : ∀ (arrangement : Arrangement) x d, x ∈ arrangement.angles elevations azimuths →
      d ∈ store.directions → arrangement.withLeading x d ∈ store.directions :=
    fun arrangement x d hx member => grid.withLeading_mem hx (grid.leading_mem _ member)
  refine ⟨(upper .byElevation).elevation, (lower .byElevation).elevation,
    (upper .byAzimuth).azimuth, (lower .byAzimuth).azimuth, ?_, ?_, ?_, ?_,
    arranged.cell?_eq_some_iff grid.distinct neighbours⟩
  · exact Arrangement.firstFrom_leading (fun _ => grid.leading_mem .byElevation)
      (row .byElevation) elevation (first .byElevation)
  · exact Arrangement.lastBefore_leading (fun _ => grid.leading_mem .byElevation)
      (row .byElevation) elevation (last .byElevation)
  · exact Arrangement.firstFrom_leading (fun _ => grid.leading_mem .byAzimuth)
      (row .byAzimuth) azimuth (first .byAzimuth)
  · exact Arrangement.lastBefore_leading (fun _ => grid.leading_mem .byAzimuth)
      (row .byAzimuth) azimuth (last .byAzimuth)

theorem cell?_seam (grid : store.IsGrid elevations azimuths) (arranged : store.Arranged)
    {before behind : Direction} (same : before.elevation = behind.elevation)
    (elevation : before.elevation ∉ elevations)
    (first : ∀ x ∈ azimuths, before.azimuth.rank < x.rank)
    (last : ∀ x ∈ azimuths, x.rank < behind.azimuth.rank) :
    store.cell? before = store.cell? behind := by
  obtain ⟨e₁, e₂, a₁, a₂, he₁, he₂, ha₁, ha₂, cell⟩ :=
    grid.cell?_eq_some_iff arranged elevation fun member => (first _ member).false
  obtain ⟨e₁', e₂', a₁', a₂', he₁', he₂', ha₁', ha₂', cell'⟩ :=
    grid.cell?_eq_some_iff arranged (same ▸ elevation) fun member => (last _ member).false
  rw [← same] at he₁' he₂'
  have above : (∀ x ∈ azimuths, before.azimuth.rank ≤ x.rank) ∨
      ∀ x ∈ azimuths, x.rank < before.azimuth.rank := .inl fun x hx => (first x hx).le
  have below : (∀ x ∈ azimuths, behind.azimuth.rank ≤ x.rank) ∨
      ∀ x ∈ azimuths, x.rank < behind.azimuth.rank := .inr last
  have upper : a₁ = a₁' := Binary64.rank_injective <|
    le_antisymm (ha₁.least above _ ha₁'.among) (ha₁'.least below _ ha₁.among)
  have lower : a₂ = a₂' := Binary64.rank_injective <|
    le_antisymm (ha₂'.greatest below _ ha₂.among) (ha₂.greatest above _ ha₂'.among)
  obtain rfl := he₁.unique Binary64.rank_injective he₁'
  obtain rfl := he₂.unique Binary64.rank_injective he₂'
  subst upper lower
  exact Option.ext fun found => (cell found).trans (cell' found).symm

end IsGrid

theorem exists_reachable_grid (operations : List Operation) (elevations azimuths : Finset Binary64)
    (lengths : ∀ record ∈ operations.flatMap Operation.offered, record.attenuation.size = 1)
    (elevation : elevations.Nonempty) (azimuth : azimuths.Nonempty)
    (distinct : ((operations.flatMap Operation.offered).map Record.direction).Nodup)
    (only : ∀ d ∈ (operations.flatMap Operation.offered).map Record.direction,
      d.elevation ∈ elevations ∧ d.azimuth ∈ azimuths)
    (all : ∀ x ∈ elevations, ∀ y ∈ azimuths,
      ⟨x, y⟩ ∈ (operations.flatMap Operation.offered).map Record.direction) :
    ∃ store : Store, store.Reachable ∧ store.axis.size = 1 ∧
      store.IsGrid elevations azimuths ∧
      ∀ record, record ∈ store.arena ↔ record ∈ operations.flatMap Operation.offered := by
  obtain ⟨store, reachable, size, arena⟩ := exists_reachable_arena operations lengths distinct
  have directions := congrArg (List.map Record.direction) arena
  refine ⟨store, reachable, size,
    .of_directions directions elevation azimuth distinct only all, fun record => ?_⟩
  rw [← Array.mem_toList_iff, arena]

/-- A store of a grid has a cell for every direction, and never answers that it has none. Apart from
the measured angles, the cell is that between the neighbours of both angles, each in its own circle,
so that both sides of the seam between the last azimuth and the first have one cell. -/
theorem grid_covers (reachable : store.Reachable) (grid : store.IsGrid elevations azimuths) :
    (∀ direction, ∃ cell, store.cell? direction = some cell ∧
      (∀ record ∈ cell.corners, record ∈ store.arena) ∧
        ∀ lib interpolation,
          store.answerBy lib interpolation direction =
              pure (cell.answer lib direction interpolation) ∧
            ∀ record, (store.answerBy lib interpolation direction).value ≠ .uncovered record) ∧
      (∀ direction, direction.elevation ∉ elevations → direction.azimuth ∉ azimuths →
        ∃ e₁ e₂ a₁ a₂,
          FirstFrom Binary64.rank (· ∈ elevations) direction.elevation e₁ ∧
            LastBefore Binary64.rank (· ∈ elevations) direction.elevation e₂ ∧
            FirstFrom Binary64.rank (· ∈ azimuths) direction.azimuth a₁ ∧
            LastBefore Binary64.rank (· ∈ azimuths) direction.azimuth a₂ ∧
            ∃ cell, store.cell? direction = some cell ∧
              cell.map Record.direction = ⟨⟨e₁, a₁⟩, ⟨e₂, a₁⟩, ⟨e₂, a₂⟩, ⟨e₁, a₂⟩⟩) ∧
      ∀ before behind : Direction, before.elevation = behind.elevation →
        before.elevation ∉ elevations →
        (∀ x ∈ azimuths, before.azimuth.rank < x.rank) →
        (∀ x ∈ azimuths, x.rank < behind.azimuth.rank) →
        store.cell? before = store.cell? behind := by
  have arranged := reachable.arranged
  refine ⟨fun direction => ?_, fun direction elevation azimuth => ?_,
    fun before behind => grid.cell?_seam arranged⟩
  · obtain ⟨cell, found, corners⟩ := grid.exists_cell? arranged direction
    refine ⟨cell, found, corners, fun lib interpolation => ?_⟩
    have answer : store.answerBy lib interpolation direction =
        pure (cell.answer lib direction interpolation) := by rw [answerBy, found]
    refine ⟨answer, fun record => ?_⟩
    rw [answer]
    exact cell.answer_ne_uncovered lib direction interpolation record
  · obtain ⟨e₁, e₂, a₁, a₂, he₁, he₂, ha₁, ha₂, spans⟩ :=
      grid.cell?_eq_some_iff arranged elevation azimuth
    obtain ⟨cell, found, _⟩ := grid.exists_cell? arranged direction
    exact ⟨e₁, e₂, a₁, a₂, he₁, he₂, ha₁, ha₂, cell, found, ((spans cell).mp found).2⟩

theorem grid_covers_squareRun :
    ∃ store : Store, store.Reachable ∧
      store.IsGrid {⟨0⟩, ⟨1⟩} {⟨0⟩, ⟨1⟩} ∧
      ∃ cell, store.cell? ⟨⟨7⟩, ⟨0x8000000000000001⟩⟩ = some cell ∧
        store.cell? ⟨⟨7⟩, ⟨9⟩⟩ = some cell := by
  obtain ⟨store, reachable, -, grid, -⟩ := exists_reachable_grid squareRun {⟨0⟩, ⟨1⟩} {⟨0⟩, ⟨1⟩}
    (by decide) (by decide) (by decide) (by decide) (by decide) (by decide)
  obtain ⟨covered, _, seam⟩ := grid_covers reachable grid
  obtain ⟨cell, found, _⟩ := covered ⟨⟨7⟩, ⟨9⟩⟩
  refine ⟨store, reachable, grid, cell, ?_, found⟩
  rw [← found]
  exact seam _ _ rfl (by decide) (by decide) (by decide)

end Store

end Directivity
