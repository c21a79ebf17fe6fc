import Directivity.BandAxis
import Directivity.Interpolation
import Directivity.Record

/-!
A store of records in two arrangements.

The records stand in an arena, in the order in which they came, and the position of a record there
is its number. Two indices arrange the numbers, one by elevation and one by azimuth. A number of an
index is bounded by the size of the arena, so it always has a record.
-/

set_option autoImplicit false
set_option relaxedAutoImplicit false

namespace Directivity

/-- The records of a source, arranged by elevation and by azimuth. -/
structure Store where
  identifier : Int32
  axis : BandAxis
  interpolation : Interpolation
  arena : Array Record
  byElevation : Array (Fin arena.size)
  byAzimuth : Array (Fin arena.size)

namespace Store

def createWith (options : StoreOptions) (identifier : Int32) (bands : List Binary64) :
    Except Error (Logged Store) := do
  let axis ← BandAxis.ofList bands
  return do
    Logged.report (.storeCreated identifier axis.size)
    return ⟨identifier, axis, options.interpolation, #[], #[], #[]⟩

def create (identifier : Int32) (bands : List Binary64) : Except Error (Logged Store) :=
  createWith {} identifier bands

def setInterpolation (store : Store) (interpolation : Interpolation) : Store :=
  { store with interpolation }

def size (store : Store) : Nat :=
  store.arena.size

def index (store : Store) : Arrangement → Array (Fin store.arena.size)
  | .byElevation => store.byElevation
  | .byAzimuth => store.byAzimuth

def records (store : Store) (arrangement : Arrangement) : List Record :=
  (store.index arrangement).toList.map fun number => store.arena[number]

def at? (store : Store) (arrangement : Arrangement) (position : Nat) : Option Record :=
  (store.index arrangement)[position]?.map fun number => store.arena[number]

def locate (store : Store) (arrangement : Arrangement) (direction : Direction) : Place :=
  Directivity.locate (store.index arrangement) fun number =>
    arrangement.compare store.arena[number].direction direction

def find? (store : Store) (direction : Direction) : Option Record :=
  match store.locate .byElevation direction with
  | .found position => store.at? .byElevation position
  | .absent _ => none

end Store

end Directivity
