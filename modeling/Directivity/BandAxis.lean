import Directivity.Error
import Directivity.Event
import Directivity.Search
import Std.Data.TreeMap

set_option autoImplicit false
set_option relaxedAutoImplicit false

namespace Directivity

/-- Ascending frequency bands in hertz, and the columns of their patterns. -/
structure BandAxis where
  bands : Array Binary64
  columns : Std.TreeMap UInt64 Nat
  nonempty : 0 < bands.size

namespace BandAxis

def firstDescent? (bands : List Binary64) : Option (Binary64 × Binary64) :=
  (bands.zip bands.tail).find? fun (earlier, later) => decide (later ≤ earlier)

def columnsOf (bands : List Binary64) : Std.TreeMap UInt64 Nat :=
  .ofList (bands.zipIdx.map fun (band, column) => (band.bits, column))

/-- The axis of a list of bands, unless the list is empty, has a band that is not finite or does not
ascend; the first of these reasons counts. -/
def ofList (bands : List Binary64) : Except Error BandAxis :=
  if h : bands = [] then .error .noBands
  else
    match bands.find? fun band => !band.isFinite with
    | some band => .error (.bandNotFinite band)
    | none =>
      match firstDescent? bands with
      | some (earlier, later) => .error (.bandsNotAscending earlier later)
      | none =>
        .ok
          { bands := bands.toArray
            columns := columnsOf bands
            nonempty := by simpa [List.length_pos_iff] using h }

def size (axis : BandAxis) : Nat :=
  axis.bands.size

theorem eq_of_ofList {bands : List Binary64} {axis : BandAxis} (valid : ofList bands = .ok axis) :
    axis.bands = bands.toArray ∧ axis.columns = columnsOf bands := by
  unfold ofList at valid
  split at valid
  · cases valid
  · split at valid
    · cases valid
    · split at valid
      · cases valid
      · cases valid
        exact ⟨rfl, rfl⟩

theorem size_of_ofList {bands : List Binary64} {axis : BandAxis} (valid : ofList bands = .ok axis) :
    axis.size = bands.length := by
  rw [size, (eq_of_ofList valid).1, List.size_toArray]

def toList (axis : BandAxis) : List Binary64 :=
  axis.bands.toList

def agrees (a b : BandAxis) : Bool :=
  a.size == b.size && (a.toList.zip b.toList).all (fun (x, y) => x.sameValue y) &&
    a.columns == b.columns

def exactColumn? (axis : BandAxis) (frequency : Binary64) : Option Nat :=
  axis.columns[frequency.bits]?

/-- The nearer of the first band that is not below a frequency, or the last band, and the band
before it; of two equally near ones, the lower. -/
def nearestColumn (axis : BandAxis) (frequency : Binary64) : Fin axis.bands.size :=
  let upper := min (cut axis.bands fun band => decide (band < frequency)) (axis.bands.size - 1)
  let lower := upper - 1
  have := axis.nonempty
  have upper_lt : upper < axis.bands.size := by omega
  have lower_lt : lower < axis.bands.size := by omega
  if (axis.bands[lower] - frequency).abs ≤ (axis.bands[upper] - frequency).abs then
    ⟨lower, lower_lt⟩
  else ⟨upper, upper_lt⟩

def column (axis : BandAxis) (frequency : Binary64) : Logged Nat :=
  match axis.exactColumn? frequency with
  | some column => pure column
  | none => do
    let column := axis.nearestColumn frequency
    Logged.report (.nearestBand frequency axis.bands[column])
    pure column.val

def columnsFor (axis : BandAxis) (frequencies : List Binary64) : Logged (List Nat) :=
  frequencies.mapM axis.column

end BandAxis

end Directivity
