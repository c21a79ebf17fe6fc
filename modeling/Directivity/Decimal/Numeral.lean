import Directivity.Decimal.Basic

set_option autoImplicit false
set_option relaxedAutoImplicit false

namespace Directivity

/-- A numeral: a sign, the digits before the point, the digits after it if there is a point, and an
exponent if there is one. -/
structure Numeral where
  negative : Bool
  whole : List Char
  fraction : List Char
  exponent : Option Int
  deriving DecidableEq

namespace Numeral

def ofInt (i : Int) : Numeral :=
  ⟨decide (i < 0), Nat.toDigits 10 i.natAbs, [], none⟩

def decimal (n : Numeral) : Decimal :=
  ⟨Nat.ofDigitChars 10 (n.whole ++ n.fraction) 0, n.exponent.getD 0 - n.fraction.length⟩

def toBinary64 (n : Numeral) : Binary64 :=
  n.decimal.toBinary64 n.negative

def signChars (plusSign negative : Bool) : List Char :=
  if negative then ['-'] else if plusSign then ['+'] else []

def exponentChars (plusSign : Bool) : Option Int → List Char
  | none => []
  | some e => 'e' :: signChars plusSign (decide (e < 0)) ++ Nat.toDigits 10 e.natAbs

def chars (plusSign : Bool) (n : Numeral) : List Char :=
  signChars false n.negative ++ n.whole ++ (if n.fraction = [] then [] else '.' :: n.fraction) ++
    exponentChars plusSign n.exponent

def digits? (cs : List Char) : Option Nat :=
  if cs ≠ [] ∧ cs.all Char.isDigit then some (Nat.ofDigitChars 10 cs 0) else none

def exponent? : List Char → Option (Option Int)
  | [] => some none
  | mark :: rest =>
    if mark = 'e' ∨ mark = 'E' then
      match rest with
      | '-' :: digits => (digits? digits).map fun n => some (-(n : Int))
      | '+' :: digits => (digits? digits).map fun n => some (n : Int)
      | digits => (digits? digits).map fun n => some (n : Int)
    else none

def ending? : List Char → Option (List Char × Option Int)
  | '.' :: rest =>
    if rest.takeWhile Char.isDigit = [] then none
    else (exponent? (rest.dropWhile Char.isDigit)).map (rest.takeWhile Char.isDigit, ·)
  | rest => (exponent? rest).map ([], ·)

/-- A numeral without its sign. A zero stands before the point only alone. -/
def unsigned? (negative : Bool) (cs : List Char) : Option Numeral :=
  let whole := cs.takeWhile Char.isDigit
  if whole = [] ∨ (whole.head? = some '0' ∧ 1 < whole.length) then none
  else
    (ending? (cs.dropWhile Char.isDigit)).map fun (fraction, exponent) =>
      ⟨negative, whole, fraction, exponent⟩

def ofChars? : List Char → Option Numeral
  | '-' :: rest => unsigned? true rest
  | cs => unsigned? false cs

def isInteger (n : Numeral) : Bool :=
  n.fraction.isEmpty && n.exponent.isNone

/-- The integer that a numeral stands for, if it is an integer. Minus zero is none: integers have no
such sign. -/
def int? (n : Numeral) : Option Int :=
  let absolute := Nat.ofDigitChars 10 n.whole 0
  if !n.isInteger || (n.negative && absolute == 0) then none
  else some (if n.negative then -(absolute : Int) else absolute)

end Numeral

end Directivity
