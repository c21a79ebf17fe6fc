import Directivity.Json.Format
import Directivity.Json.Reader
import Directivity.Json.Writer

/-!
The JSON format of the values of `Json`.

Data with named fields are written as an object, and read from an object that has each field once
and may have other members, or from the array of the fields alone.
-/

set_option autoImplicit false
set_option relaxedAutoImplicit false

namespace Directivity

namespace Numeral

/-- The number nearest to a numeral, unless that is infinite. -/
def nearest? (n : Numeral) : Option Binary64 :=
  if n.toBinary64.isFinite then some n.toBinary64 else none

end Numeral

namespace Json

def ofNumber (x : Binary64) : Json :=
  if x.isFinite then .number (layout.numeral x) else .null

def number? (reading : Numeral → Option Binary64) : Json → Option Binary64
  | .number numeral => reading numeral
  | _ => none

def ofInt (i : Int) : Json :=
  .number (.ofInt i)

def int? : Json → Option Int
  | .number numeral => numeral.int?
  | _ => none

def word? (value : Json) : Option UInt64 := do
  let i ← value.int?
  if 0 ≤ i ∧ i < UInt64.size then some (UInt64.ofNat i.toNat) else none

def int32? (value : Json) : Option Int32 := do
  let i ← value.int?
  if Int32.minValue.toInt ≤ i ∧ i ≤ Int32.maxValue.toInt then some (Int32.ofInt i) else none

def ofText (text : String) : Json :=
  .string (some text)

def text? : Json → Option String
  | .string text => text
  | _ => none

def items? : Json → Option (List Json)
  | .array items => some items
  | _ => none

def ofFields (fields : List (String × Json)) : Json :=
  .object (fields.map fun (name, value) => (some name, value))

def fields? (names : List String) : Json → Option (List Json)
  | .array items => if items.length = names.length then some items else none
  | .object members =>
    if members.all fun (key, _) => key.isSome then
      names.mapM fun name => onlyMember? members (some name)
    else none
  | _ => none

/-- The name of a choice that carries nothing: the name alone, or as the key of `null`. -/
def name? : Json → Option String
  | .string text => text
  | .object [(key, .null)] => key
  | _ => none

def choice? (names : List String) (value : Json) : Option String :=
  value.name?.filter names.contains

/-- Which number a numeral is read as is left open: it may be rounded once or in several steps. -/
def formatReading (reading : Numeral → Option Binary64) : JsonFormat Json where
  print := text
  parse? := ofString?
  number := ofNumber
  number? := number? reading
  int32 i := ofInt i.toInt
  int32? := int32?
  word w := ofInt w.toNat
  word? := word?
  text := ofText
  text? := text?
  choice? := choice?
  list := .array
  list? := items?
  object := ofFields
  fields? := fields?

def format : JsonFormat Json :=
  formatReading Numeral.nearest?

end Json

namespace JsonForm

variable {α : Type} [JsonForm α]

def toJson (a : α) : Json :=
  encode Json.format a

def write (a : α) : String :=
  Json.format.write a

def read? (text : String) : Option α :=
  Json.format.read? text

end JsonForm

end Directivity
