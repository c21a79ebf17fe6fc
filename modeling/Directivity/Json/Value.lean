import Directivity.Decimal.Numeral

set_option autoImplicit false
set_option relaxedAutoImplicit false

namespace Directivity

inductive Json
  | null
  | bool (value : Bool)
  | number (numeral : Numeral)
  | string (text : Option String)
  | array (items : List Json)
  | object (members : List (Option String × Json))

end Directivity
