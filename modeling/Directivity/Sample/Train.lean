import Directivity.Store.Admission
import Directivity.Store.Answer

set_option autoImplicit false
set_option relaxedAutoImplicit false

namespace Directivity.Sample

def trainBands : List Binary64 :=
  [63, 125, 250, 500, 1000, 2000, 4000, 8000]

def trainRecord (lib : Elementary) (elevation azimuth : Angle) : Record :=
  let rear := (1 - lib.cos azimuth.radians) / 2
  let ground : Binary64 := if elevation.radians < 0 then -3 else 0
  let attenuation := trainBands.map fun band => ground - rear * 4 * lib.log2 (band / 63)
  .ofAngles elevation azimuth attenuation.toArray

def stepAngle (steps : Int) : Angle :=
  .ofDegrees (.ofInt (steps * 15))

/-- A grid of fifteen degrees: elevations from `-75` to `90`, all azimuths. -/
def trainRecords (lib : Elementary) : List Record :=
  (List.range 12).flatMap fun (row : Nat) => (List.range 24).map fun (column : Nat) =>
    trainRecord lib (stepAngle (row - 5)) (stepAngle column)

def train (lib : Elementary) : Except Error (Logged Store) := do
  let created ← Store.create 1 trainBands
  let filled ← created.value.insertAll (trainRecords lib)
  return do
    let _ ← created
    let store ← filled
    Logged.report (.patternLoaded store.identifier store.size)
    return store

end Directivity.Sample
