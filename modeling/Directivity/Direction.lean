import Directivity.Binary64.Arithmetic
import Directivity.Binary64.Elementary

set_option autoImplicit false
set_option relaxedAutoImplicit false

namespace Directivity

/-- A direction in radians: an elevation, where `0` is horizontal and `π / 2` is the top, and an
azimuth, where `0` is the front. -/
structure Direction where
  elevation : Binary64
  azimuth : Binary64
  deriving DecidableEq

/-- Which of the two angles of a direction counts first. -/
inductive Arrangement
  | byElevation
  | byAzimuth
  deriving DecidableEq

def Arrangement.compare : Arrangement → Direction → Direction → Ordering
  | .byElevation, a, b =>
    (a.elevation.totalCompare b.elevation).then (a.azimuth.totalCompare b.azimuth)
  | .byAzimuth, a, b =>
    (a.azimuth.totalCompare b.azimuth).then (a.elevation.totalCompare b.elevation)

/-- The angle in radians between two directions, where the azimuth has the part of a latitude. Equal
angles give zero whatever the functions; otherwise the cosine is clamped, so that its rounding never
leaves the domain of `acos`. -/
def Direction.distance (lib : Elementary) (a b : Direction) : Binary64 :=
  if a.elevation.sameValue b.elevation && a.azimuth.sameValue b.azimuth then 0
  else
    let cosine :=
      lib.sin a.azimuth * lib.sin b.azimuth +
        lib.cos a.azimuth * lib.cos b.azimuth * lib.cos (a.elevation - b.elevation)
    lib.acos (cosine.clamp (-1) 1)

end Directivity
