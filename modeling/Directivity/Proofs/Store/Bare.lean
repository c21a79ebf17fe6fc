import Directivity.Store.Answer
import Directivity.Store.Run

/-!
Stores whose indices are bare numbers.

Nothing in the type of a bare store says that a number of an index has a record, or that a column
has a value. So every access here is checked, and so is every step below a number. A check that
fails is a fault and ends the call; apart from the checks, the calls are those of a store.
-/

set_option autoImplicit false
set_option relaxedAutoImplicit false

namespace Directivity

inductive Fault
  | outOfRange
  | underflow
  deriving DecidableEq

/-- A computation that reports what it does, and may end with a fault. -/
abbrev Checked :=
  ExceptT Fault Logged

namespace Checked

variable {α : Type}

def there : Option α → Checked α
  | some x => pure x
  | none => throw .outOfRange

def oneLess : Nat → Checked Nat
  | 0 => throw .underflow
  | n + 1 => pure n

def insertAt (xs : List α) (position : Nat) (x : α) : Checked (List α) :=
  if position ≤ xs.length then pure (xs.insertIdx position x) else throw .outOfRange

end Checked

def BandAxis.checkedColumn (axis : BandAxis) (frequency : Binary64) : Checked Nat :=
  match axis.exactColumn? frequency with
  | some column => pure column
  | none => do
    let last ← Checked.oneLess axis.bands.size
    let upper := min (cut axis.bands fun band => decide (band < frequency)) last
    let lower := upper - 1
    let lowerBand ← Checked.there axis.bands[lower]?
    let upperBand ← Checked.there axis.bands[upper]?
    let column :=
      if (lowerBand - frequency).abs ≤ (upperBand - frequency).abs then lower else upper
    let band ← Checked.there axis.bands[column]?
    Logged.report (.nearestBand frequency band)
    return column

/-- A store as data alone. -/
structure BareStore where
  identifier : Int32
  axis : BandAxis
  interpolation : Interpolation
  arena : Array Record
  byElevation : List Nat
  byAzimuth : List Nat

def Store.bare (store : Store) : BareStore where
  identifier := store.identifier
  axis := store.axis
  interpolation := store.interpolation
  arena := store.arena
  byElevation := store.byElevation.toList.map Fin.val
  byAzimuth := store.byAzimuth.toList.map Fin.val

namespace BareStore

def index (bare : BareStore) : Arrangement → List Nat
  | .byElevation => bare.byElevation
  | .byAzimuth => bare.byAzimuth

/-- The numbers of an arrangement with their records. A search may look at any of them, and so may a
sort. -/
def entries (bare : BareStore) (arrangement : Arrangement) : Checked (List (Nat × Record)) :=
  (bare.index arrangement).mapM fun number => do
    return (number, ← Checked.there bare.arena[number]?)

def locate (bare : BareStore) (arrangement : Arrangement) (direction : Direction) :
    Checked Place := do
  let entries ← bare.entries arrangement
  return Directivity.locate entries.toArray fun entry =>
    arrangement.compare entry.2.direction direction

def recordAt (bare : BareStore) (arrangement : Arrangement) (position : Nat) : Checked Record := do
  let number ← Checked.there (bare.index arrangement)[position]?
  Checked.there bare.arena[number]?

def find (bare : BareStore) (direction : Direction) : Checked (Option Record) := do
  match ← bare.locate .byElevation direction with
  | .found position => return some (← bare.recordAt .byElevation position)
  | .absent _ => return none

/-! ### Admission -/

def checkLength (bare : BareStore) (record : Record) : Except Error Unit :=
  if record.attenuation.size = bare.axis.size then .ok ()
  else .error (.attenuationLength bare.axis.size record.attenuation.size)

def place (bare : BareStore) (record : Record) : Checked BareStore := do
  match ← bare.locate .byElevation record.direction with
  | .found _ =>
    Logged.report (.alreadyStored record.direction)
    return bare
  | .absent position =>
    let other := (← bare.locate .byAzimuth record.direction).position
    let byElevation ← Checked.insertAt bare.byElevation position bare.arena.size
    let byAzimuth ← Checked.insertAt bare.byAzimuth other bare.arena.size
    return { bare with arena := bare.arena.push record, byElevation, byAzimuth }

def insert (bare : BareStore) (record : Record) : Checked (Except Error BareStore) :=
  match bare.checkLength record with
  | .error error => return .error error
  | .ok _ => return .ok (← bare.place record)

def grow (bare : BareStore) (records : List Record) : BareStore :=
  let new := List.range' bare.arena.size records.length
  { bare with
    arena := bare.arena ++ records.toArray
    byElevation := bare.byElevation ++ new
    byAzimuth := bare.byAzimuth ++ new }

def sorted (bare : BareStore) (arrangement : Arrangement) : Checked (List Nat) := do
  let entries ← bare.entries arrangement
  return (entries.mergeSort fun a b =>
    (arrangement.compare a.2.direction b.2.direction).isLE).map Prod.fst

def insertAll (bare : BareStore) (records : List Record) : Checked (Except Error BareStore) :=
  match records.forM bare.checkLength with
  | .error error => return .error error
  | .ok _ => do
    let grown := bare.grow records
    let byElevation ← grown.sorted .byElevation
    let byAzimuth ← grown.sorted .byAzimuth
    Logged.report (.recordsAdded bare.identifier records.length grown.arena.size)
    return .ok { grown with byElevation, byAzimuth }

def apply (bare : BareStore) : Store.Operation → Checked BareStore
  | .insert record => return (← bare.insert record).toOption.getD bare
  | .insertAll records => return (← bare.insertAll records).toOption.getD bare
  | .setInterpolation interpolation => return { bare with interpolation }

def run (bare : BareStore) (operations : List Store.Operation) : Checked BareStore :=
  operations.foldlM apply bare

/-! ### Answers -/

def below (size position : Nat) : Checked Nat :=
  if position = 0 then Checked.oneLess size else Checked.oneLess position

def neighbours (bare : BareStore) (arrangement : Arrangement) (direction : Direction) :
    Checked (Direction × Direction) := do
  let position := (← bare.locate arrangement direction).position
  let upper ← bare.recordAt arrangement (Store.above bare.arena.size position)
  let lower ← bare.recordAt arrangement (← below bare.arena.size position)
  return (upper.direction, lower.direction)

def cell (bare : BareStore) (direction : Direction) : Checked (Option (Cell Record)) := do
  if bare.arena.size = 0 then return none
  let (upper, lower) ← bare.neighbours .byElevation direction
  let (next, previous) ← bare.neighbours .byAzimuth direction
  let some c00 ← bare.find ⟨upper.elevation, next.azimuth⟩ | return none
  let some c10 ← bare.find ⟨lower.elevation, next.azimuth⟩ | return none
  let some c11 ← bare.find ⟨lower.elevation, previous.azimuth⟩ | return none
  let some c01 ← bare.find ⟨upper.elevation, previous.azimuth⟩ | return none
  return some { c00, c10, c11, c01 }

def answerBy (lib : Elementary) (bare : BareStore) (interpolation : Interpolation)
    (direction : Direction) : Checked Answer := do
  match ← bare.cell direction with
  | some cell => return cell.answer lib direction interpolation
  | none =>
    Logged.report (.noCell direction)
    return .uncovered (.unattenuated direction bare.axis.size)

def answer (lib : Elementary) (bare : BareStore) (direction : Direction) : Checked Answer :=
  bare.answerBy lib bare.interpolation direction

def value (record : Record) (column : Nat) : Checked Binary64 :=
  Checked.there record.attenuation[column]?

def attenuation (lib : Elementary) (bare : BareStore) (frequency : Binary64)
    (direction : Direction) : Checked Binary64 := do
  let column ← bare.axis.checkedColumn frequency
  let answer ← bare.answer lib direction
  value answer.record column

def attenuations (lib : Elementary) (bare : BareStore) (frequencies : List Binary64)
    (direction : Direction) : Checked (List Binary64) := do
  let answer ← bare.answer lib direction
  frequencies.mapM fun frequency => do value answer.record (← bare.axis.checkedColumn frequency)

def attenuationTable (lib : Elementary) (bare : BareStore) (frequencies : List Binary64)
    (directions : List Direction) : Checked (List (List Binary64)) := do
  let columns ← frequencies.mapM bare.axis.checkedColumn
  directions.mapM fun direction => do
    let answer ← bare.answer lib direction
    columns.mapM (value answer.record)

end BareStore

end Directivity
