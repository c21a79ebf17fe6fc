import Directivity.Decimal.Numeral
import Directivity.Decimal.Shortest

set_option autoImplicit false
set_option relaxedAutoImplicit false

namespace Directivity

structure Layout where
  /-- The least and the greatest power of ten whose multiples are written without an exponent;
  where there are no such bounds, no exponent is ever written. -/
  positional : Option (Int × Int)
  wholeMark : Bool
  plusSign : Bool
  tie : Tie

/-- Numbers within sentences: never an exponent, and no mark on whole numbers. -/
def Layout.sentence : Layout where
  positional := none
  wholeMark := false
  plusSign := false
  tie := .up

def Decimal.significant (d : Decimal) : List Char :=
  ((Nat.toDigits 10 d.coefficient).reverse.dropWhile (· == '0')).reverse

def Numeral.positional (negative wholeMark : Bool) (digits : List Char) (point : Int) : Numeral :=
  let before := point.toNat
  if point ≤ 0 then ⟨negative, ['0'], List.replicate (-point).toNat '0' ++ digits, none⟩
  else if digits.length ≤ before then
    ⟨negative, digits ++ List.replicate (before - digits.length) '0',
      if wholeMark then ['0'] else [], none⟩
  else ⟨negative, digits.take before, digits.drop before, none⟩

def Numeral.scientific (negative : Bool) (digits : List Char) (point : Int) : Numeral :=
  ⟨negative, digits.take 1, digits.drop 1, some (point - 1)⟩

namespace Layout

def isPositional (layout : Layout) (point : Int) : Bool :=
  match layout.positional with
  | none => true
  | some (least, greatest) => decide (least ≤ point - 1) && decide (point - 1 ≤ greatest)

def numeral (layout : Layout) (x : Binary64) : Numeral :=
  let d := x.shortest layout.tie
  if layout.isPositional d.point then
    .positional x.isNegative layout.wholeMark d.significant d.point
  else .scientific x.isNegative d.significant d.point

end Layout

def Binary64.unboundedText (x : Binary64) : String :=
  if x.isNaN then "NaN" else if x.isNegative then "-inf" else "inf"

def Layout.text (layout : Layout) (x : Binary64) : String :=
  if x.isFinite then String.ofList ((layout.numeral x).chars layout.plusSign)
  else x.unboundedText

/-- The numeral of the exact value of a finite number, rounded to a number of places, ties to the
even digit. -/
def Numeral.fixed (places : Nat) (x : Binary64) : Numeral :=
  let one := Nat.pow 10 places
  let scaled := roundHalfEven (x.units * one) Binary64.oneUnits
  let fraction := Nat.toDigits 10 (scaled % one)
  ⟨x.isNegative, Nat.toDigits 10 (scaled / one),
    List.replicate (places - fraction.length) '0' ++ fraction, none⟩

def Binary64.fixedText (places : Nat) (x : Binary64) : String :=
  if x.isFinite then String.ofList ((Numeral.fixed places x).chars false) else x.unboundedText

end Directivity
