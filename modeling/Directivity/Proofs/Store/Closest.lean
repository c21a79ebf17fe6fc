import Directivity.Proofs.Difference
import Directivity.Proofs.Store.Measured
import Directivity.Proofs.Store.Sizes

set_option autoImplicit false
set_option relaxedAutoImplicit false

namespace Directivity

theorem Binary64.lt_largest {x : Binary64} (defined : x.isNaN = false) (bounded : ¬ .pi < x) :
    x < .largest := by
  have number : Binary64.pi.isNaN = false := by decide
  have le : x ≤ .pi := Binary64.le_of_not_lt (by simp [comparable, defined, number]) bounded
  exact Binary64.lt_of_le_of_lt le (by decide)

namespace Cell

variable {distance : Record → Binary64} {fallback record : Record} {seen : List Record}
  {best : Record × Binary64}

def IsFirstNearest (distance : Record → Binary64) (records : List Record) (record : Record) : Prop :=
  (distance record).isNaN = false ∧
    (∀ other ∈ records, (distance other).isNaN = false → distance record ≤ distance other) ∧
    ∃ before behind, records = before ++ record :: behind ∧
      ∀ earlier ∈ before, (distance earlier).isNaN = false → distance record < distance earlier

def nearer (distance : Record → Binary64) (best : Record × Binary64) (record : Record) :
    Record × Binary64 :=
  if distance record < best.2 then (record, distance record) else best

/-- What the search holds after some records: the record that stands in and the bound, while no
distance was a number, and then the first nearest record and its distance. -/
inductive Leads (distance : Record → Binary64) (fallback : Record) (seen : List Record) :
    Record × Binary64 → Prop
  | undefined (none : ∀ record ∈ seen, (distance record).isNaN) :
      Leads distance fallback seen (fallback, .largest)
  | nearest {record : Record} (first : IsFirstNearest distance seen record) :
      Leads distance fallback seen (record, distance record)

theorem IsFirstNearest.append (first : IsFirstNearest distance seen record) {next : Record}
    (notNearer : (distance next).isNaN = false → distance record ≤ distance next) :
    IsFirstNearest distance (seen ++ [next]) record := by
  obtain ⟨number, least, before, behind, rfl, earliest⟩ := first
  refine ⟨number, ?_, before, behind ++ [next], by simp, earliest⟩
  intro other member
  rcases List.mem_append.mp member with old | new
  · exact least other old
  · rw [List.mem_singleton.mp new]
    exact notNearer

theorem isFirstNearest_append_self {next : Record} (number : (distance next).isNaN = false)
    (below : ∀ earlier ∈ seen, (distance earlier).isNaN = false → distance next < distance earlier) :
    IsFirstNearest distance (seen ++ [next]) next := by
  refine ⟨number, ?_, seen, [], rfl, below⟩
  intro other member defined
  rcases List.mem_append.mp member with old | new
  · exact Binary64.le_of_lt (below other old defined)
  · rw [List.mem_singleton.mp new]
    exact ⟨by simp [Binary64.comparable, number], le_rfl⟩

theorem Leads.nearer (leads : Leads distance fallback seen best) {next : Record}
    (bounded : ¬ .pi < distance next) :
    Leads distance fallback (seen ++ [next]) (nearer distance best next) := by
  unfold Cell.nearer
  cases undefined : (distance next).isNaN with
  | true =>
    rw [if_neg (Binary64.not_lt_of_isNaN (.inl undefined))]
    cases leads with
    | undefined none =>
      refine .undefined fun record member => ?_
      rcases List.mem_append.mp member with old | new
      · exact none record old
      · rwa [List.mem_singleton.mp new]
    | nearest first =>
      exact .nearest (first.append fun number => absurd (undefined.symm.trans number) (by decide))
  | false =>
    cases leads with
    | undefined none =>
      rw [if_pos (Binary64.lt_largest undefined bounded)]
      refine .nearest (isFirstNearest_append_self undefined fun earlier member number => ?_)
      exact absurd ((none earlier member).symm.trans number) (by decide)
    | @nearest record first =>
      split_ifs with less
      · refine .nearest (isFirstNearest_append_self undefined fun earlier member number => ?_)
        exact Binary64.lt_of_lt_of_le less (first.2.1 earlier member number)
      · refine .nearest (first.append fun _ => Binary64.le_of_not_lt ?_ less)
        simp [Binary64.comparable, undefined, first.1]

theorem Leads.foldl {rest : List Record} (leads : Leads distance fallback seen best)
    (bounded : ∀ record ∈ rest, ¬ .pi < distance record) :
    Leads distance fallback (seen ++ rest) (rest.foldl (Cell.nearer distance) best) := by
  -- Every step moves one record from the rest to the records seen.
  induction rest generalizing seen best with
  | nil => rwa [List.append_nil]
  | cons next rest ih =>
    obtain ⟨here, later⟩ := List.forall_mem_cons.mp bounded
    rw [List.foldl_cons, List.append_cons]
    exact ih (leads.nearer here) later

theorem nearestCorner_first (cell : Cell Record)
    (bounded : ∀ corner ∈ cell.corners, ¬ .pi < distance corner) :
    ((∃ corner ∈ cell.corners, (distance corner).isNaN = false) →
        IsFirstNearest distance cell.corners (cell.nearestCorner distance)) ∧
      ((∀ corner ∈ cell.corners, (distance corner).isNaN) →
        cell.nearestCorner distance = cell.c00) := by
  have start : Leads distance cell.c00 [] (cell.c00, .largest) := .undefined fun _ => nofun
  obtain ⟨result, searched⟩ : ∃ result, cell.corners.foldl (nearer distance) (cell.c00, .largest) =
      result := ⟨_, rfl⟩
  have found : cell.nearestCorner distance = result.1 := congrArg Prod.fst searched
  have leads : Leads distance cell.c00 cell.corners result := searched ▸ start.foldl bounded
  rw [found]
  cases leads with
  | undefined none =>
    refine ⟨?_, fun _ => rfl⟩
    rintro ⟨corner, member, number⟩
    exact absurd ((none corner member).symm.trans number) (by decide)
  | @nearest record first =>
    refine ⟨fun _ => first, fun none => ?_⟩
    obtain ⟨number, -, before, behind, split, -⟩ := first
    have member : record ∈ cell.corners := by
      rw [split]
      exact List.mem_append_right _ List.mem_cons_self
    exact absurd ((none record member).symm.trans number) (by decide)

theorem not_lt_nearestCorner (cell : Cell Record)
    (bounded : ∀ corner ∈ cell.corners, ¬ .pi < distance corner) :
    ∀ corner ∈ cell.corners, ¬ distance corner < distance (cell.nearestCorner distance) := by
  intro corner member
  cases undefined : (distance corner).isNaN with
  | true => exact Binary64.not_lt_of_isNaN (.inl undefined)
  | false =>
    have first := (cell.nearestCorner_first bounded).1 ⟨corner, member, undefined⟩
    exact Binary64.not_lt_of_le (first.2.1 corner member undefined)

end Cell

theorem Direction.not_pi_lt_distance {lib : Elementary} (bounded : ∀ x, ¬ .pi < lib.acos x)
    (a b : Direction) : ¬ .pi < a.distance lib b := by
  unfold distance
  split_ifs
  · decide +kernel
  · exact bounded _

namespace Store

/-- Of the corners of a cell, that is answered by which comes first among those at the least
distance, as far as distances are numbers, and the first corner where none is. So, asked for the
nearest direction, a store answers by a record of its own wherever it has a cell, and no corner of
the cell is nearer. -/
theorem nearest_answers_first :
    (∀ (distance : Record → Binary64) (cell : Cell Record),
      (∀ corner ∈ cell.corners, ¬ .pi < distance corner) →
        ((∃ corner ∈ cell.corners, (distance corner).isNaN = false) →
            Cell.IsFirstNearest distance cell.corners (cell.nearestCorner distance)) ∧
          ((∀ corner ∈ cell.corners, (distance corner).isNaN) →
            cell.nearestCorner distance = cell.c00)) ∧
      ∀ (lib : Elementary), (∀ x, ¬ .pi < lib.acos x) → ∀ (store : Store) (direction : Direction),
        (∀ cell, store.cell? direction = some cell →
          ∃ record ∈ store.arena, record ∈ cell.corners ∧
            store.answerBy lib .nearest direction = pure (.stored record) ∧
            ∀ corner ∈ cell.corners,
              ¬ direction.distance lib corner.direction < direction.distance lib record.direction) ∧
          (store.cell? direction = none →
            (store.answerBy lib .nearest direction).value =
              .uncovered (.unattenuated direction store.axis.size)) := by
  refine ⟨fun distance cell => cell.nearestCorner_first, fun lib bounded store direction => ⟨?_, ?_⟩⟩
  · intro cell found
    have corner := cell.nearestCorner_mem fun record => direction.distance lib record.direction
    refine ⟨_, cell?_mem found _ corner, corner, ?_, ?_⟩
    · rw [answerBy, found]
      rfl
    · exact cell.not_lt_nearestCorner fun record _ =>
        Direction.not_pi_lt_distance bounded direction record.direction
  · intro none
    rw [answerBy, none]
    rfl

theorem nearest_answers_first_uneven :
    let cell : Cell Record := ⟨⟨⟨0, 0⟩, #[.nan]⟩, ⟨⟨1, 0⟩, #[2]⟩, ⟨⟨1, 1⟩, #[1]⟩, ⟨⟨0, 1⟩, #[1]⟩⟩
    (∀ corner ∈ cell.corners, ¬ .pi < corner.value 0) ∧
      Cell.IsFirstNearest (Record.value · 0) cell.corners (cell.nearestCorner (Record.value · 0)) ∧
      (∀ x, ¬ .pi < Elementary.sampled.acos x) ∧
      quarterStore.Reachable ∧ ∃ record ∈ quarterStore.arena, record.value 0 = 10 ∧
        quarterStore.answerBy .sampled .nearest ⟨.halfPi, -.quarterPi⟩ = pure (.stored record) := by
  intro cell
  have bounded : ∀ corner ∈ cell.corners, ¬ .pi < corner.value 0 := by decide +kernel
  have number : ∃ corner ∈ cell.corners, (corner.value 0).isNaN = false := by
    refine ⟨cell.c10, .tail _ (.head _), ?_⟩
    decide +kernel
  have acute : ∀ x, ¬ .pi < Elementary.sampled.acos x :=
    Binary64.tabulated_of_forall (¬ .pi < ·) (by decide) (by decide)
  obtain ⟨first, answers⟩ := nearest_answers_first
  refine ⟨bounded, (first _ cell bounded).1 number, acute, reachable_quarterStore, ?_⟩
  obtain ⟨cell, found⟩ : ∃ cell, quarterStore.cell? ⟨.halfPi, -.quarterPi⟩ = some cell :=
    Option.isSome_iff_exists.mp (by decide +kernel)
  obtain ⟨record, stored, -, answer, -⟩ := (answers .sampled acute quarterStore _).1 cell found
  have ten : (quarterStore.answerBy .sampled .nearest
      ⟨.halfPi, -.quarterPi⟩).value.record.value 0 = 10 := by decide +kernel
  rw [answer] at ten
  exact ⟨record, stored, ten, answer⟩

end Store

end Directivity
