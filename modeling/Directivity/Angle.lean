import Directivity.Decimal.Layout

set_option autoImplicit false
set_option relaxedAutoImplicit false

namespace Directivity

namespace Binary64

/-- The number nearest to `π / 180`. -/
def radiansPerDegree : Binary64 := ⟨0x3F91DF46A2529D39⟩

/-- The number nearest to `180 / π`. -/
def degreesPerRadian : Binary64 := ⟨0x404CA5DC1A63C1F8⟩

def inDegrees (x : Binary64) : Binary64 :=
  x * degreesPerRadian

end Binary64

structure Angle where
  radians : Binary64
  deriving DecidableEq

namespace Angle

def ofRadians (x : Binary64) : Angle :=
  ⟨x⟩

def ofDegrees (x : Binary64) : Angle :=
  ⟨x * Binary64.radiansPerDegree⟩

def zero : Angle :=
  ⟨0⟩

def quarter : Angle :=
  ⟨.halfPi⟩

def half : Angle :=
  ⟨.pi⟩

def degrees (a : Angle) : Binary64 :=
  a.radians.inDegrees

def text (a : Angle) : String :=
  s!"{Layout.sentence.text a.radians}rad"

def agrees (a b : Angle) : Bool :=
  a.radians.sameValue b.radians

def compare? (a b : Angle) : Option Ordering :=
  a.radians.compareValues? b.radians

end Angle

end Directivity
