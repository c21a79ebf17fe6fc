import Directivity.Json.Quoted
import Directivity.Json.Value

set_option autoImplicit false
set_option relaxedAutoImplicit false

namespace Directivity.Json

inductive Token
  | openArray
  | closeArray
  | openObject
  | closeObject
  | comma
  | colon
  | null
  | bool (value : Bool)
  | number (numeral : Numeral)
  | string (text : Option String)

namespace Token

def isBlank (c : Char) : Bool :=
  c == ' ' || c == '\n' || c == '\t' || c == '\r'

/-- The characters that numerals are made of. A numeral never borders on one of them that is not
its own. -/
def isNumeric (c : Char) : Bool :=
  c.isDigit || c == '-' || c == '+' || c == '.' || c == 'e' || c == 'E'

def mark? : Char → Option Token
  | '[' => some openArray
  | ']' => some closeArray
  | '{' => some openObject
  | '}' => some closeObject
  | ',' => some comma
  | ':' => some colon
  | _ => none

/-- The first token of a text that does not start with a blank, and the text after it. -/
def first? : List Char → Option (Token × List Char)
  | 'n' :: 'u' :: 'l' :: 'l' :: rest => some (null, rest)
  | 't' :: 'r' :: 'u' :: 'e' :: rest => some (bool true, rest)
  | 'f' :: 'a' :: 'l' :: 's' :: 'e' :: rest => some (bool false, rest)
  | '"' :: rest => do
    let (units, rest) ← Quoted.units? rest
    return (string ((Quoted.text? units).map String.ofList), rest)
  | c :: rest =>
    match mark? c with
    | some token => some (token, rest)
    | none => do
      let numeral ← Numeral.ofChars? ((c :: rest).takeWhile isNumeric)
      return (number numeral, rest.dropWhile isNumeric)
  | [] => none

end Token

/-- All tokens of a text. Each of them takes at least one character, so as many steps as there are
characters are enough. -/
def tokensWithin? : Nat → List Char → Option (List Token)
  | _, [] => some []
  | 0, _ :: _ => none
  | steps + 1, c :: rest =>
    if Token.isBlank c then tokensWithin? steps rest
    else do
      let (token, rest) ← Token.first? (c :: rest)
      return token :: (← tokensWithin? steps rest)

def tokens? (cs : List Char) : Option (List Token) :=
  tokensWithin? cs.length cs

/-- A container that is still open, its items or members latest first. -/
inductive Frame
  | items (before : List Json)
  | members (before : List (Option String × Json)) (key : Option String)

/-- What the next token has to be, within the open containers, innermost first. -/
inductive Expectation
  /-- A value; or the end of the array, if it has no item yet. -/
  | value (outer : List Frame) (mayClose : Bool)
  | key (outer : List Frame) (before : List (Option String × Json)) (mayClose : Bool)
  | colon (outer : List Frame) (before : List (Option String × Json)) (key : Option String)
  | next (outer : List Frame) (complete : Json)

namespace Expectation

def step : Expectation → Token → Option Expectation
  | value outer _, .openArray => some (value (.items [] :: outer) true)
  | value outer _, .openObject => some (key outer [] true)
  | value outer _, .null => some (next outer .null)
  | value outer _, .bool b => some (next outer (.bool b))
  | value outer _, .number n => some (next outer (.number n))
  | value outer _, .string t => some (next outer (.string t))
  | value (.items before :: outer) true, .closeArray =>
    some (next outer (.array before.reverse))
  | key outer before _, .string t => some (colon outer before t)
  | key outer before true, .closeObject => some (next outer (.object before.reverse))
  | colon outer before k, .colon => some (value (.members before k :: outer) false)
  | next (.items before :: outer) v, .comma => some (value (.items (v :: before) :: outer) false)
  | next (.items before :: outer) v, .closeArray => some (next outer (.array (v :: before).reverse))
  | next (.members before k :: outer) v, .comma => some (key outer ((k, v) :: before) false)
  | next (.members before k :: outer) v, .closeObject =>
    some (next outer (.object ((k, v) :: before).reverse))
  | _, _ => none

def result? : Expectation → Option Json
  | next [] v => some v
  | _ => none

end Expectation

def ofChars? (cs : List Char) : Option Json := do
  let tokens ← tokens? cs
  let final ← tokens.foldlM Expectation.step (.value [] false)
  final.result?

def ofString? (text : String) : Option Json :=
  ofChars? text.toList

end Directivity.Json
