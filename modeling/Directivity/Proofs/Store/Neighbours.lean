import Directivity.Proofs.Circle
import Directivity.Proofs.Store.Distinct
import Directivity.Store.Answer

set_option autoImplicit false
set_option relaxedAutoImplicit false

namespace Directivity

namespace Cell

def map {α β : Type} (f : α → β) (cell : Cell α) : Cell β :=
  ⟨f cell.c00, f cell.c10, f cell.c11, f cell.c01⟩

theorem corners_map {α β : Type} (f : α → β) (cell : Cell α) :
    (cell.map f).corners = cell.corners.map f := rfl

/-- The directions of the corners between neighbours in both arrangements: the elevations are those
of the neighbours by elevation, and the azimuths those of the neighbours by azimuth. -/
def between (upper lower : Arrangement → Direction) : Cell Direction where
  c00 := ⟨(upper .byElevation).elevation, (upper .byAzimuth).azimuth⟩
  c10 := ⟨(lower .byElevation).elevation, (upper .byAzimuth).azimuth⟩
  c11 := ⟨(lower .byElevation).elevation, (lower .byAzimuth).azimuth⟩
  c01 := ⟨(upper .byElevation).elevation, (lower .byAzimuth).azimuth⟩

end Cell

namespace Store

variable {store : Store}

theorem at?_eq (store : Store) (arrangement : Arrangement) (position : Nat) :
    store.at? arrangement position = (store.records arrangement)[position]? := by
  simp [at?, records]

theorem Arranged.mem_records (arranged : store.Arranged) (arrangement : Arrangement)
    (record : Record) : record ∈ store.records arrangement ↔ record ∈ store.arena := by
  rw [(arranged.records_perm arrangement).mem_iff, Array.mem_toList_iff]

def HasRecord (store : Store) (direction : Direction) (record : Record) : Prop :=
  record ∈ store.arena ∧ record.direction = direction

theorem HasRecord.mem_directions {direction : Direction} {record : Record}
    (has : store.HasRecord direction record) : direction ∈ store.directions := by
  obtain ⟨member, rfl⟩ := has
  exact List.mem_map_of_mem (Array.mem_toList_iff.mpr member)

theorem HasRecord.unique (distinct : store.directions.Nodup) {direction : Direction}
    {r s : Record} (hr : store.HasRecord direction r) (hs : store.HasRecord direction s) :
    r = s := by
  refine List.inj_on_of_nodup_map distinct ?_ ?_ (hr.2.trans hs.2.symm)
  · exact Array.mem_toList_iff.mpr hr.1
  · exact Array.mem_toList_iff.mpr hs.1

theorem Arranged.find?_of_mem (arranged : store.Arranged) {direction : Direction}
    (known : direction ∈ store.directions) :
    ∃ record, store.find? direction = some record ∧ store.HasRecord direction record := by
  obtain ⟨position, found⟩ := arranged.locate_of_mem .byElevation known
  have fits := arranged.locate_fits .byElevation direction
  rw [found] at fits
  cases fits with
  | found _ inside here _ =>
    have inside' : position < (store.records .byElevation).length := by
      simpa [keys, circle] using inside
    have here' : ((store.records .byElevation)[position]).direction = direction := by
      simpa [keys, circle, (Arrangement.byElevation.key_injective).eq_iff] using here
    refine ⟨(store.records .byElevation)[position], ?_, ?_, here'⟩
    · simp [find?, found, at?_eq, inside']
    · exact (arranged.mem_records _ _).mp (List.getElem_mem inside')

theorem Arranged.find?_of_not_mem (arranged : store.Arranged) {direction : Direction}
    (fresh : direction ∉ store.directions) : store.find? direction = none := by
  obtain ⟨position, absent⟩ := arranged.locate_of_not_mem .byElevation fresh
  simp [find?, absent]

theorem Arranged.find?_eq_some (arranged : store.Arranged) (distinct : store.directions.Nodup)
    (direction : Direction) (record : Record) :
    store.find? direction = some record ↔ store.HasRecord direction record := by
  by_cases known : direction ∈ store.directions
  · obtain ⟨other, found, has⟩ := arranged.find?_of_mem known
    rw [found, Option.some_inj]
    exact ⟨fun same => same ▸ has, fun has' => has.unique distinct has'⟩
  · rw [arranged.find?_of_not_mem known]
    exact ⟨fun none => (Option.some_ne_none _ none.symm).elim, fun has =>
      (known has.mem_directions).elim⟩

theorem above_lt {size : Nat} (position : Nat) (nonempty : size ≠ 0) : above size position < size := by
  unfold above
  split_ifs <;> omega

theorem below_lt {size position : Nat} (inside : position ≤ size) (nonempty : size ≠ 0) :
    below size position < size := by
  unfold below
  split_ifs <;> omega

theorem neighbours?_eq_circle (store : Store) (arrangement : Arrangement) (direction : Direction) :
    store.neighbours? arrangement direction =
      let position := (store.locate arrangement direction).position
      (store.circle arrangement)[above store.size position]?.bind fun upper =>
        (store.circle arrangement)[below store.size position]?.map fun lower => (upper, lower) := by
  simp [neighbours?, at?_eq, circle, Option.map_eq_bind, Option.bind_assoc]

theorem Arranged.lt_iff_lt_position (arranged : store.Arranged)
    (distinct : store.directions.Nodup) (arrangement : Arrangement) (direction : Direction) :
    let position := (store.locate arrangement direction).position
    position ≤ (store.circle arrangement).length ∧
      ∀ (i : Nat) (h : i < (store.circle arrangement).length),
        arrangement.key (store.circle arrangement)[i] < arrangement.key direction ↔
          i < position := by
  have ascending : (store.keys arrangement).Pairwise (· < ·) :=
    List.pairwise_map.mpr (arranged.circle_ascending distinct arrangement)
  obtain ⟨inside, counted⟩ :=
    (arranged.locate_fits arrangement direction).lt_iff_lt_position ascending
  simp only [keys, List.length_map, List.getElem_map] at inside counted
  exact ⟨inside, counted⟩

theorem Arranged.neighbours?_eq (arranged : store.Arranged) (distinct : store.directions.Nodup)
    (nonempty : store.size ≠ 0) (arrangement : Arrangement) (direction : Direction) :
    ∃ upper lower, store.neighbours? arrangement direction = some (upper, lower) ∧
      FirstFrom arrangement.key (· ∈ store.directions) direction upper ∧
      LastBefore arrangement.key (· ∈ store.directions) direction lower := by
  have length := arranged.length_circle arrangement
  have among : (· ∈ store.circle arrangement) = (· ∈ store.directions) := by
    funext d
    exact propext (arranged.circle_perm arrangement).mem_iff
  have ascending := arranged.circle_ascending distinct arrangement
  obtain ⟨inside, counted⟩ := arranged.lt_iff_lt_position distinct arrangement direction
  have upper_lt := above_lt (store.locate arrangement direction).position (length ▸ nonempty)
  have lower_lt := below_lt inside (length ▸ nonempty)
  refine ⟨_, _, ?_, among ▸ firstFrom_above ascending counted upper_lt,
    among ▸ lastBefore_below ascending counted lower_lt⟩
  rw [neighbours?_eq_circle, ← length]
  dsimp only
  rw [List.getElem?_eq_getElem upper_lt, List.getElem?_eq_getElem lower_lt]
  rfl

theorem Arranged.cell?_eq_some_iff (arranged : store.Arranged)
    (distinct : store.directions.Nodup) {direction : Direction}
    {upper lower : Arrangement → Direction}
    (neighbours : ∀ arrangement, store.neighbours? arrangement direction =
      some (upper arrangement, lower arrangement)) (cell : Cell Record) :
    store.cell? direction = some cell ↔
      (∀ record ∈ cell.corners, record ∈ store.arena) ∧
        cell.map Record.direction = .between upper lower := by
  have four : store.cell? direction = some cell ↔
      store.HasRecord (Cell.between upper lower).c00 cell.c00 ∧
        store.HasRecord (Cell.between upper lower).c10 cell.c10 ∧
        store.HasRecord (Cell.between upper lower).c11 cell.c11 ∧
        store.HasRecord (Cell.between upper lower).c01 cell.c01 := by
    simp only [← arranged.find?_eq_some distinct, Cell.between]
    constructor
    · intro found
      simp only [cell?, neighbours, Option.bind_eq_bind, Option.bind_some,
        Option.bind_eq_some_iff, Option.pure_def, Option.some_inj] at found
      obtain ⟨c00, h00, c10, h10, c11, h11, c01, h01, rfl⟩ := found
      exact ⟨h00, h10, h11, h01⟩
    · rintro ⟨h00, h10, h11, h01⟩
      simp [cell?, neighbours, h00, h10, h11, h01]
  rw [four]
  simp only [HasRecord, Cell.corners, Cell.map, List.forall_mem_cons, List.not_mem_nil,
    false_implies, implies_true, and_true, Cell.ext_iff]
  constructor
  · rintro ⟨⟨m00, d00⟩, ⟨m10, d10⟩, ⟨m11, d11⟩, m01, d01⟩
    exact ⟨⟨m00, m10, m11, m01⟩, d00, d10, d11, d01⟩
  · rintro ⟨⟨m00, m10, m11, m01⟩, d00, d10, d11, d01⟩
    exact ⟨⟨m00, d00⟩, ⟨m10, d10⟩, ⟨m11, d11⟩, m01, d01⟩

theorem Arranged.isSome_cell?_iff (arranged : store.Arranged)
    (distinct : store.directions.Nodup) {direction : Direction}
    {upper lower : Arrangement → Direction}
    (neighbours : ∀ arrangement, store.neighbours? arrangement direction =
      some (upper arrangement, lower arrangement)) :
    (store.cell? direction).isSome ↔
      ∀ corner ∈ (Cell.between upper lower).corners, corner ∈ store.directions := by
  rw [Option.isSome_iff_exists]
  simp only [arranged.cell?_eq_some_iff distinct neighbours]
  constructor
  · rintro ⟨cell, stored, spans⟩ corner member
    rw [← spans, Cell.corners_map] at member
    obtain ⟨record, corner_of, rfl⟩ := List.mem_map.mp member
    exact List.mem_map_of_mem (Array.mem_toList_iff.mpr (stored record corner_of))
  · intro known
    have record_of : ∀ corner ∈ (Cell.between upper lower).corners,
        ∃ record ∈ store.arena, record.direction = corner := by
      intro corner member
      obtain ⟨record, stored, same⟩ := List.mem_map.mp (known corner member)
      exact ⟨record, Array.mem_toList_iff.mp stored, same⟩
    simp only [Cell.corners, List.forall_mem_cons] at record_of
    obtain ⟨⟨c00, m00, d00⟩, ⟨c10, m10, d10⟩, ⟨c11, m11, d11⟩, ⟨c01, m01, d01⟩, -⟩ := record_of
    refine ⟨⟨c00, c10, c11, c01⟩, ?_, Cell.ext d00 d10 d11 d01⟩
    simp [Cell.corners, m00, m10, m11, m01]

/-- The leading angles of two directions of the store are the nearest ones around that of a
direction. If no direction of the store comes before it, or all do, they are the extreme ones
instead. -/
structure Brackets (store : Store) (arrangement : Arrangement)
    (direction upper lower : Direction) : Prop where
  nearest : (∃ a ∈ store.directions, arrangement.key a < arrangement.key direction) →
    (∃ b ∈ store.directions, arrangement.key direction ≤ arrangement.key b) →
    (arrangement.leading lower).rank ≤ (arrangement.leading direction).rank ∧
      (arrangement.leading direction).rank ≤ (arrangement.leading upper).rank ∧
      ∀ c ∈ store.directions, (arrangement.leading c).rank ≤ (arrangement.leading lower).rank ∨
        (arrangement.leading upper).rank ≤ (arrangement.leading c).rank
  extreme : (∀ a ∈ store.directions, arrangement.key direction ≤ arrangement.key a) ∨
      (∀ a ∈ store.directions, arrangement.key a < arrangement.key direction) →
    ∀ c ∈ store.directions, (arrangement.leading upper).rank ≤ (arrangement.leading c).rank ∧
      (arrangement.leading c).rank ≤ (arrangement.leading lower).rank

theorem brackets_of_neighbours {arrangement : Arrangement} {direction upper lower : Direction}
    (first : FirstFrom arrangement.key (· ∈ store.directions) direction upper)
    (last : LastBefore arrangement.key (· ∈ store.directions) direction lower) :
    store.Brackets arrangement direction upper lower where
  nearest := by
    rintro ⟨a, ha, less⟩ ⟨b, hb, notLess⟩
    cases first with
    | wrapped _ below _ => exact absurd (below b hb) notLess.not_gt
    | next _ le first =>
      cases last with
      | wrapped _ above _ => exact absurd less (above a ha).not_gt
      | previous _ lt last =>
        refine ⟨Arrangement.leading_le_leading lt.le, Arrangement.leading_le_leading le, ?_⟩
        intro c hc
        rcases lt_or_ge (arrangement.key c) (arrangement.key direction) with before | after
        · exact .inl (Arrangement.leading_le_leading (last c hc before))
        · exact .inr (Arrangement.leading_le_leading (first c hc after))
  extreme := by
    intro outside c hc
    have least := first.least outside c hc
    have greatest := last.greatest outside c hc
    exact ⟨Arrangement.leading_le_leading least, Arrangement.leading_le_leading greatest⟩

theorem Arranged.cell?_of_size_eq_zero (arranged : store.Arranged) (empty : store.size = 0)
    (direction : Direction) : store.cell? direction = none := by
  have nothing : store.circle .byElevation = [] :=
    List.length_eq_zero_iff.mp ((arranged.length_circle .byElevation).trans empty)
  simp [cell?, neighbours?_eq_circle, nothing]

/-- Around every direction, a store without repeated directions finds a cell where it has records
and all four corners between the neighbours of the direction are among them; it answers by the cell,
and without one by no attenuation in any band. -/
theorem cell_between_neighbours (reachable : store.Reachable) (distinct : store.directions.Nodup)
    (direction : Direction) :
    (store.size = 0 → store.cell? direction = none) ∧
      (store.size ≠ 0 → ∃ upper lower : Arrangement → Direction,
        (∀ arrangement,
          FirstFrom arrangement.key (· ∈ store.directions) direction (upper arrangement) ∧
            LastBefore arrangement.key (· ∈ store.directions) direction (lower arrangement) ∧
            store.Brackets arrangement direction (upper arrangement) (lower arrangement)) ∧
          ((store.cell? direction).isSome ↔
            ∀ corner ∈ (Cell.between upper lower).corners, corner ∈ store.directions) ∧
          ∀ cell, store.cell? direction = some cell ↔
            (∀ record ∈ cell.corners, record ∈ store.arena) ∧
              cell.map Record.direction = .between upper lower) ∧
      ∀ lib interpolation,
        (∀ cell, store.cell? direction = some cell →
          (store.answerBy lib interpolation direction).value =
            cell.answer lib direction interpolation) ∧
          (store.cell? direction = none →
            (store.answerBy lib interpolation direction).value =
              .uncovered ⟨direction, .replicate store.axis.size 0⟩) := by
  have arranged := reachable.arranged
  refine ⟨fun empty => arranged.cell?_of_size_eq_zero empty direction, fun nonempty => ?_, ?_⟩
  · choose upper lower neighbours first last using fun arrangement =>
      arranged.neighbours?_eq distinct nonempty arrangement direction
    refine ⟨upper, lower, fun arrangement => ⟨first arrangement, last arrangement, ?_⟩,
      arranged.isSome_cell?_iff distinct neighbours,
      arranged.cell?_eq_some_iff distinct neighbours⟩
    exact brackets_of_neighbours (first arrangement) (last arrangement)
  · intro lib interpolation
    refine ⟨fun cell found => ?_, fun none => ?_⟩
    · simp [answerBy, found]
    · rw [answerBy, none]
      rfl

def squareRun : List Operation :=
  [.insertAll [single 1 1, single 0 0], .insert (single 1 0), .setInterpolation .nearest,
    .insert (single 0 1)]

theorem cell_between_neighbours_squareRun :
    ∃ store : Store, store.Reachable ∧ store.directions.Nodup ∧ store.size ≠ 0 ∧
      (store.cell? ⟨⟨0⟩, ⟨7⟩⟩).isSome := by
  obtain ⟨store, reachable, directions⟩ := exists_reachable squareRun (by decide) (by decide)
  have distinct : store.directions.Nodup := by
    rw [directions]
    decide
  have nonempty : store.size ≠ 0 := by
    rw [← length_directions, directions]
    decide
  have square : ∀ a ∈ store.directions, ∀ b ∈ store.directions,
      ⟨a.elevation, b.azimuth⟩ ∈ store.directions := by
    rw [directions]
    decide
  obtain ⟨upper, lower, neighbours, found, _⟩ :=
    (cell_between_neighbours reachable distinct ⟨⟨0⟩, ⟨7⟩⟩).2.1 nonempty
  have above := fun arrangement => (neighbours arrangement).1.among
  have below := fun arrangement => (neighbours arrangement).2.1.among
  refine ⟨store, reachable, distinct, nonempty, found.mpr ?_⟩
  simp [Cell.corners, Cell.between, square, above, below]

end Store

end Directivity
