/-!
Binary floating point numbers of 64 bits, as bit patterns.

A number is its pattern, so `=` tells the two zeros apart and holds of a NaN and itself; the
comparison of values is a relation of its own, in the module on order. The pattern splits into a
sign and a magnitude, and the magnitudes of the finite numbers stand in the order of the numbers
that they denote.
-/

set_option autoImplicit false
set_option relaxedAutoImplicit false

namespace Directivity

/-- A binary floating point number of 64 bits, given by its pattern. -/
structure Binary64 where
  bits : UInt64
  deriving DecidableEq, Hashable, Inhabited

namespace Binary64

def signWeight : Nat := 0x8000000000000000

/-- The weight of the lowest bit above the fraction, which is also that of the hidden bit. -/
def hiddenWeight : Nat := 0x10000000000000

def magnitude (x : Binary64) : Nat :=
  x.bits.toNat % signWeight

def isNegative (x : Binary64) : Bool :=
  decide (signWeight ≤ x.bits.toNat)

def ofMagnitude (negative : Bool) (magnitude : Nat) : Binary64 :=
  ⟨UInt64.ofNat (if negative then signWeight + magnitude else magnitude)⟩

/-- The magnitude of the infinities: finite numbers lie below it and NaNs above. -/
def infiniteMagnitude : Nat := 0x7FF0000000000000

def isNaN (x : Binary64) : Bool :=
  decide (infiniteMagnitude < x.magnitude)

def isInfinite (x : Binary64) : Bool :=
  x.magnitude == infiniteMagnitude

def isFinite (x : Binary64) : Bool :=
  decide (x.magnitude < infiniteMagnitude)

def isZero (x : Binary64) : Bool :=
  x.magnitude == 0

def neg (x : Binary64) : Binary64 :=
  ofMagnitude (!x.isNegative) x.magnitude

def abs (x : Binary64) : Binary64 :=
  ofMagnitude false x.magnitude

instance : Neg Binary64 := ⟨neg⟩

def infinity : Binary64 := ⟨0x7FF0000000000000⟩

/-- The quiet NaN with the least pattern, which every undefined operation yields. -/
def nan : Binary64 := ⟨0x7FF8000000000000⟩

def largest : Binary64 := ⟨0x7FEFFFFFFFFFFFFF⟩

def pi : Binary64 := ⟨0x400921FB54442D18⟩

def halfPi : Binary64 := ⟨0x3FF921FB54442D18⟩

/-- A magnitude `m` denotes this many units of `2 ^ -1074`: the low 52 bits are a fraction, and the
bits above them say how far the fraction, completed by its hidden bit, is scaled. -/
def unitsOfMagnitude (m : Nat) : Nat :=
  let scale := m / hiddenWeight
  let fraction := m % hiddenWeight
  if scale = 0 then fraction else (hiddenWeight + fraction) <<< (scale - 1)

/-- The absolute value of a finite number, in units of `2 ^ -1074`. -/
def units (x : Binary64) : Nat :=
  unitsOfMagnitude x.magnitude

def signedUnits (x : Binary64) : Int :=
  if x.isNegative then -(x.units : Int) else x.units

end Binary64

end Directivity
