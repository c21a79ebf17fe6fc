import Directivity.Pattern
import Directivity.Store.Cell

set_option autoImplicit false
set_option relaxedAutoImplicit false

namespace Directivity

/-- The record that answers for a direction, by its origin. -/
inductive Answer
  | stored (record : Record)
  | interpolated (record : Record)
  /-- A record without attenuation, where the store has no cell. -/
  | uncovered (record : Record)

namespace Answer

def record : Answer → Record
  | stored record => record
  | interpolated record => record
  | uncovered record => record

def isStored : Answer → Bool
  | stored _ => true
  | interpolated _ | uncovered _ => false

end Answer

def Cell.answer (lib : Elementary) (cell : Cell Record) (direction : Direction) :
    Interpolation → Answer
  | .nearest => .stored (cell.nearestCorner fun record => direction.distance lib record.direction)
  | .bilinear => .interpolated (cell.interpolate lib direction)

namespace Store

def answerBy (lib : Elementary) (store : Store) (interpolation : Interpolation)
    (direction : Direction) : Logged Answer :=
  match store.cell? direction with
  | some cell => return cell.answer lib direction interpolation
  | none => do
    Logged.report (.noCell direction)
    return .uncovered (.unattenuated direction store.axis.size)

def answer (lib : Elementary) (store : Store) (direction : Direction) : Logged Answer :=
  store.answerBy lib store.interpolation direction

/-- The attenuation of one frequency towards a direction. The column is found first, so what it
reports comes first. -/
def attenuation (lib : Elementary) (store : Store) (frequency : Binary64)
    (direction : Direction) : Logged Binary64 := do
  let column ← store.axis.column frequency
  let answer ← store.answer lib direction
  return answer.record.value column

/-- The attenuations of several frequencies towards a direction, whose answer is found once, before
the columns. -/
def attenuations (lib : Elementary) (store : Store) (frequencies : List Binary64)
    (direction : Direction) : Logged (List Binary64) := do
  let answer ← store.answer lib direction
  frequencies.mapM fun frequency => return answer.record.value (← store.axis.column frequency)

/-- The attenuations of several frequencies towards several directions: the columns are found once,
before the answers. -/
def attenuationTable (lib : Elementary) (store : Store) (frequencies : List Binary64)
    (directions : List Direction) : Logged (List (List Binary64)) := do
  let columns ← store.axis.columnsFor frequencies
  directions.mapM fun direction => do
    let answer ← store.answer lib direction
    return columns.map answer.record.value

def pattern (lib : Elementary) (store : Store) : Pattern where
  attenuation := store.attenuation lib
  attenuations := store.attenuations lib

end Store

end Directivity
