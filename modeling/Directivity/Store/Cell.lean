import Directivity.Level
import Directivity.Store.Basic

/-!
Cells of a store: four directions around a given one, and what they say about it.

In each arrangement a direction has a neighbour above it, which is its own entry if it has one, and
a neighbour below it; the first entry follows the last. The elevations of the neighbours by
elevation and the azimuths of the neighbours by azimuth span the cell.
-/

set_option autoImplicit false
set_option relaxedAutoImplicit false

namespace Directivity

/-- Something for each corner of a cell. The first digit of a name is `0` for the upper elevation
and `1` for the lower; the second digit says the same of the azimuth. -/
@[ext]
structure Cell (α : Type) where
  c00 : α
  c10 : α
  c11 : α
  c01 : α

namespace Cell

def corners {α : Type} (cell : Cell α) : List α :=
  [cell.c00, cell.c10, cell.c11, cell.c01]

/-- The corner of the least distance, and the first of those. A distance that is no number is never
less than another, so the first corner stands in where no distance is a number. -/
def nearestCorner (distance : Record → Binary64) (cell : Cell Record) : Record :=
  let nearer := fun (best : Record × Binary64) (record : Record) =>
    if distance record < best.2 then (record, distance record) else best
  (cell.corners.foldl nearer (cell.c00, .largest)).1

/-- The mean of four levels in linear power, where the lower elevation has weight `x` and the lower
azimuth weight `y`. -/
def blend {α : Type} [Add α] [Sub α] [Mul α] [OfNat α 1] (power level : α → α) (x y : α)
    (cell : Cell α) : α :=
  level
    (power cell.c00 * (1 - x) * (1 - y) + power cell.c10 * x * (1 - y) +
      power cell.c01 * (1 - x) * y + power cell.c11 * x * y)

/-- A part of a length as a weight from `0` to `1`. A quotient that is no number, such as that of
two zeros, weighs nothing. -/
def share (part length : Binary64) : Binary64 :=
  let quotient := part / length
  if quotient.isNaN then 0 else quotient.clamp 0 1

/-- How far a direction lies from the upper elevation and from the upper azimuth of a cell, as parts
of the sides that meet in the first corner. -/
def weights (lib : Elementary) (cell : Cell Record) (direction : Direction) :
    Binary64 × Binary64 :=
  let first := cell.c00.direction
  let width := Direction.distance lib ⟨cell.c10.direction.elevation, first.azimuth⟩ first
  let height := Direction.distance lib ⟨first.elevation, cell.c11.direction.azimuth⟩ first
  (share (Direction.distance lib ⟨first.elevation, direction.azimuth⟩ direction) width,
    share (Direction.distance lib ⟨direction.elevation, first.azimuth⟩ direction) height)

def bands (cell : Cell Record) : Array (Cell Binary64) :=
  ((cell.c00.attenuation.zip cell.c10.attenuation).zip
      (cell.c11.attenuation.zip cell.c01.attenuation)).map
    fun ((a, b), (c, d)) => ⟨a, b, c, d⟩

def interpolate (lib : Elementary) (cell : Cell Record) (direction : Direction) : Record :=
  let (x, y) := cell.weights lib direction
  ⟨direction, cell.bands.map (blend lib.power lib.level x y)⟩

end Cell

namespace Store

/-- The position at or after a place among `size` entries; the first follows the last. -/
def above (size position : Nat) : Nat :=
  if position < size then position else 0

/-- The position before a place among `size` entries; the last comes before the first. -/
def below (size position : Nat) : Nat :=
  if position = 0 then size - 1 else position - 1

def neighbours? (store : Store) (arrangement : Arrangement) (direction : Direction) :
    Option (Direction × Direction) := do
  let position := (store.locate arrangement direction).position
  let upper ← store.at? arrangement (above store.size position)
  let lower ← store.at? arrangement (below store.size position)
  return (upper.direction, lower.direction)

def cell? (store : Store) (direction : Direction) : Option (Cell Record) := do
  let (upper, lower) ← store.neighbours? .byElevation direction
  let (next, previous) ← store.neighbours? .byAzimuth direction
  return {
    c00 := ← store.find? ⟨upper.elevation, next.azimuth⟩
    c10 := ← store.find? ⟨lower.elevation, next.azimuth⟩
    c11 := ← store.find? ⟨lower.elevation, previous.azimuth⟩
    c01 := ← store.find? ⟨upper.elevation, previous.azimuth⟩ }

end Store

end Directivity
