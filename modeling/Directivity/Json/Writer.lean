import Directivity.Decimal.Layout
import Directivity.Json.Quoted
import Directivity.Json.Value

set_option autoImplicit false
set_option relaxedAutoImplicit false

namespace Directivity.Json

/-- Numbers stand with a point or an exponent, with an exponent below `10 ^ -5` and from
`10 ^ 16`. -/
def layout : Layout where
  positional := some (-5, 15)
  wholeMark := true
  plusSign := true
  tie := .even

/-- A quoted text; what denotes no text is written as half of a pair of surrogates. -/
def stringChars : Option String → List Char
  | some text => Quoted.chars text.toList
  | none => ['"', '\\', 'u', 'd', '8', '0', '0', '"']

mutual

def chars : Json → List Char
  | .null => ['n', 'u', 'l', 'l']
  | .bool true => ['t', 'r', 'u', 'e']
  | .bool false => ['f', 'a', 'l', 's', 'e']
  | .number numeral => numeral.chars layout.plusSign
  | .string text => stringChars text
  | .array items => '[' :: itemsChars items ++ [']']
  | .object members => '{' :: membersChars members ++ ['}']

def itemsChars : List Json → List Char
  | [] => []
  | [item] => chars item
  | item :: items => chars item ++ ',' :: itemsChars items

def membersChars : List (Option String × Json) → List Char
  | [] => []
  | [(key, value)] => stringChars key ++ ':' :: chars value
  | (key, value) :: members => stringChars key ++ ':' :: chars value ++ ',' :: membersChars members

end

def text (value : Json) : String :=
  String.ofList value.chars

end Directivity.Json
