import Directivity.Binary64.Arithmetic

set_option autoImplicit false
set_option relaxedAutoImplicit false

namespace Directivity

/-- The decimal `coefficient * 10 ^ exponent`. -/
structure Decimal where
  coefficient : Nat
  exponent : Int
  deriving DecidableEq

def digitCount (n : Nat) : Nat :=
  (Nat.toDigits 10 n).length

namespace Decimal

/-- The place of the decimal point, counted from before the first digit: a decimal other than zero
is less than `10 ^ point` and no less than a tenth of that. -/
def point (d : Decimal) : Int :=
  digitCount d.coefficient + d.exponent

/-- The number of the given sign nearest to a decimal. A decimal of `10 ^ 310` or more is infinite
and one below `10 ^ -330` is zero, whatever its digits, so no larger power is ever computed. -/
def toBinary64 (negative : Bool) (d : Decimal) : Binary64 :=
  if d.coefficient = 0 ∨ d.point < -330 then .ofMagnitude negative 0
  else if 310 < d.point then .ofMagnitude negative Binary64.infiniteMagnitude
  else
    .ofUnits negative (d.coefficient * Nat.pow 10 d.exponent.toNat * Binary64.oneUnits)
      (Nat.pow 10 (-d.exponent).toNat)

end Decimal

end Directivity
