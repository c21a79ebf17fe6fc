import Directivity.Decimal.Basic

/-!
The shortest decimal that reads back as a given number.

A finite number is a multiple of `10 ^ -1074`, so its digits can be cut anywhere: the two decimals
of `n` digits next to the number are the cut and its successor. The first `n` for which one of them
reads back gives the answer, the nearer one if both do.
-/

set_option autoImplicit false
set_option relaxedAutoImplicit false

namespace Directivity

inductive Tie
  | up
  | even
  deriving DecidableEq

namespace Binary64

/-- The absolute value of a finite number, in units of `10 ^ -1074`. -/
def decimalUnits (x : Binary64) : Nat :=
  x.units * Nat.pow 5 1074

def exactDecimal (x : Binary64) : Decimal :=
  ⟨x.decimalUnits, -1074⟩

def readsBack (x : Binary64) (d : Decimal) : Bool :=
  d.toBinary64 x.isNegative == x

/-- The upper of two neighbours is taken: it is nearer, or as near and favoured by the tie. The
number lies `rest` above the lower neighbour, and the neighbours are `step` apart. -/
def takesUpper (tie : Tie) (below rest step : Nat) : Bool :=
  decide (step < 2 * rest) ||
    (2 * rest == step && match tie with
      | .up => true
      | .even => below % 2 == 1)

/-- The nearest decimal of `count` digits that reads back, where one of the two neighbours does; all
the digits of the number are `digits`. -/
def decimalOf? (tie : Tie) (x : Binary64) (digits count : Nat) : Option Decimal :=
  let dropped := digits - count
  let step := Nat.pow 10 dropped
  let below := x.decimalUnits / step
  let lower : Decimal := ⟨below, dropped - 1074⟩
  let upper : Decimal := ⟨below + 1, dropped - 1074⟩
  if x.readsBack lower then
    if x.readsBack upper && takesUpper tie below (x.decimalUnits % step) step then some upper
    else some lower
  else if x.readsBack upper then some upper
  else none

/-- The decimal of fewest digits that reads back as the finite number `x`, without its sign;
seventeen digits are always enough. Zero has no first digit, so it is a case of its own. -/
def shortest (tie : Tie) (x : Binary64) : Decimal :=
  if x.isZero then ⟨0, 0⟩
  else
    let digits := digitCount x.decimalUnits
    ((List.range' 1 17).findSome? (x.decimalOf? tie digits)).getD x.exactDecimal

end Binary64

end Directivity
