import Directivity.Binary64.Basic

/-!
The two orders of binary floating point numbers.

The total order places every pattern: the negative NaNs, the negative numbers, `-0`, `0`, the
positive numbers, the positive NaNs. The order of values, written `<` and `≤`, makes one number of
the two zeros and leaves every NaN out.
-/

set_option autoImplicit false
set_option relaxedAutoImplicit false

namespace Directivity.Binary64

/-- The place of a pattern in the total order: negative patterns run downwards from `-1`. -/
def rank (x : Binary64) : Int :=
  if x.isNegative then -(x.magnitude : Int) - 1 else x.magnitude

def totalCompare (x y : Binary64) : Ordering :=
  compare x.rank y.rank

/-- The place of a value among values, where both zeros stand at `0`. -/
def valueRank (x : Binary64) : Int :=
  if x.isNegative then -(x.magnitude : Int) else x.magnitude

def comparable (x y : Binary64) : Bool :=
  !x.isNaN && !y.isNaN

instance : LT Binary64 := ⟨fun x y => comparable x y = true ∧ x.valueRank < y.valueRank⟩

instance : LE Binary64 := ⟨fun x y => comparable x y = true ∧ x.valueRank ≤ y.valueRank⟩

instance (x y : Binary64) : Decidable (x < y) :=
  inferInstanceAs (Decidable (_ ∧ _))

instance (x y : Binary64) : Decidable (x ≤ y) :=
  inferInstanceAs (Decidable (_ ∧ _))

def sameValue (x y : Binary64) : Bool :=
  comparable x y && x.valueRank == y.valueRank

def compareValues? (x y : Binary64) : Option Ordering :=
  if comparable x y then some (compare x.valueRank y.valueRank) else none

def clamp (x low high : Binary64) : Binary64 :=
  if x < low then low else if high < x then high else x

end Directivity.Binary64
