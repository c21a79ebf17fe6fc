import Directivity.Binary64.Order
import Directivity.Rounding

/-!
Correctly rounded arithmetic on binary floating point numbers.

Every operation computes the exact result as a quotient of natural numbers, in units of
`2 ^ -1074`, and rounds it once to the nearest number, ties to the even pattern. An undefined
operation yields `nan`.
-/

set_option autoImplicit false
set_option relaxedAutoImplicit false

namespace Directivity.Binary64

/-- The magnitude of the number nearest to `num / den` units. A quotient below `2 ^ 53` units is
rounded to whole units, a larger one to 53 binary digits; as a carry runs into the scale of the
pattern, the pattern of the rounded quotient is a sum, and it stops at infinity. -/
def nearestMagnitude (num den : Nat) : Nat :=
  let shift := (num / den).log2 - 52
  min (shift * hiddenWeight + roundHalfEven num (den <<< shift)) infiniteMagnitude

def ofUnits (negative : Bool) (num den : Nat) : Binary64 :=
  ofMagnitude negative (nearestMagnitude num den)

def oneUnits : Nat := 1 <<< 1074

def ofNat (n : Nat) : Binary64 :=
  ofUnits false (n * oneUnits) 1

instance (n : Nat) : OfNat Binary64 n := ⟨ofNat n⟩

def ofInt (i : Int) : Binary64 :=
  if i < 0 then -ofNat i.natAbs else ofNat i.natAbs

/-- An exact sum of zero is `-0` only where both terms are negative zeros. -/
def add (x y : Binary64) : Binary64 :=
  if !comparable x y then nan
  else if x.isInfinite then
    if y.isInfinite && x.isNegative != y.isNegative then nan else x
  else if y.isInfinite then y
  else
    let sum := x.signedUnits + y.signedUnits
    if sum = 0 then ofMagnitude (x.isNegative && y.isNegative) 0
    else ofUnits (decide (sum < 0)) sum.natAbs 1

def sub (x y : Binary64) : Binary64 :=
  add x (-y)

def mul (x y : Binary64) : Binary64 :=
  let negative := x.isNegative != y.isNegative
  if !comparable x y then nan
  else if x.isInfinite || y.isInfinite then
    if x.isZero || y.isZero then nan else ofMagnitude negative infiniteMagnitude
  else ofUnits negative (x.units * y.units) oneUnits

def div (x y : Binary64) : Binary64 :=
  let negative := x.isNegative != y.isNegative
  if !comparable x y then nan
  else if x.isInfinite then
    if y.isInfinite then nan else ofMagnitude negative infiniteMagnitude
  else if y.isInfinite then ofMagnitude negative 0
  else if y.isZero then
    if x.isZero then nan else ofMagnitude negative infiniteMagnitude
  else ofUnits negative (x.units * oneUnits) y.units

instance : Add Binary64 := ⟨add⟩
instance : Sub Binary64 := ⟨sub⟩
instance : Mul Binary64 := ⟨mul⟩
instance : Div Binary64 := ⟨div⟩

end Directivity.Binary64
