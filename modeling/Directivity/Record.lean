import Directivity.Angle
import Directivity.Direction
import Std.Data.HashSet

set_option autoImplicit false
set_option relaxedAutoImplicit false

namespace Directivity

/-- The attenuation in decibels towards a direction, one value per frequency band. -/
structure Record where
  direction : Direction
  attenuation : Array Binary64

namespace Record

def ofAngles (elevation azimuth : Angle) (attenuation : Array Binary64) : Record :=
  ⟨⟨elevation.radians, azimuth.radians⟩, attenuation⟩

def unattenuated (direction : Direction) (bands : Nat) : Record :=
  ⟨direction, Array.replicate bands 0⟩

/-- The attenuation in a column; a band that a record does not have is not attenuated. -/
def value (record : Record) (column : Nat) : Binary64 :=
  record.attenuation.getD column 0

instance : BEq Record :=
  ⟨fun a b => (Arrangement.byElevation.compare a.direction b.direction).isEq⟩

/-- The patterns that stand for a record in a hash. -/
def fingerprint (record : Record) : UInt64 × UInt64 :=
  (record.direction.elevation.bits, record.direction.azimuth.bits)

instance : Hashable Record :=
  ⟨fun record => hash record.fingerprint⟩

def distinctCount (records : List Record) : Nat :=
  (Std.HashSet.ofList records).size

/-- Attenuations stand with a point or an exponent, with an exponent below `10 ^ -4` and from
`10 ^ 16`. -/
def layout : Layout where
  positional := some (-4, 15)
  wholeMark := true
  plusSign := false
  tie := .up

def angleText (radians : Binary64) : String :=
  s!"{radians.fixedText 2} ({radians.inDegrees.fixedText 1}°)"

def text (record : Record) : String :=
  let values := ", ".intercalate (record.attenuation.toList.map layout.text)
  "DirectivityRecord\x7btheta=" ++ angleText record.direction.elevation ++
    ", phi=" ++ angleText record.direction.azimuth ++ s!", attenuation=[{values}]\x7d"

end Record

end Directivity
