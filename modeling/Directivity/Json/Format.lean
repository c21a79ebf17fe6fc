import Directivity.Binary64.Basic

/-!
Data as JSON, whatever writes and reads the JSON.

A format has values of its own; each kind of data becomes a value, and is got back from a value of
that kind. How data of a type are put together from these kinds is their form, and the same in every
format.
-/

set_option autoImplicit false
set_option relaxedAutoImplicit false

namespace Directivity

/-- What writes and reads JSON, with values of type `σ`. -/
structure JsonFormat (σ : Type) where
  print : σ → String
  parse? : String → Option σ
  number : Binary64 → σ
  number? : σ → Option Binary64
  int32 : Int32 → σ
  int32? : σ → Option Int32
  word : UInt64 → σ
  word? : σ → Option UInt64
  text : String → σ
  text? : σ → Option String
  choice? : List String → σ → Option String
  list : List σ → σ
  list? : σ → Option (List σ)
  object : List (String × σ) → σ
  /-- The values of named fields, in the order of the names. -/
  fields? : List String → σ → Option (List σ)

class JsonForm (α : Type) where
  encode {σ : Type} (format : JsonFormat σ) : α → σ
  decode? {σ : Type} (format : JsonFormat σ) : σ → Option α

namespace JsonFormat

variable {σ : Type} (format : JsonFormat σ) {α : Type} [JsonForm α]

def write (a : α) : String :=
  format.print (JsonForm.encode format a)

def read? (text : String) : Option α :=
  (format.parse? text).bind (JsonForm.decode? format)

def reprint? (α : Type) [JsonForm α] (text : String) : Option String :=
  (format.read? text : Option α).map format.write

end JsonFormat

/-- The value of the only member of a name. -/
def onlyMember? {κ σ : Type} [BEq κ] (members : List (κ × σ)) (name : κ) : Option σ :=
  match members.filter fun member => member.1 == name with
  | [(_, value)] => some value
  | _ => none

end Directivity
