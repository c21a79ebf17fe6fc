import Directivity.Decimal.Layout

set_option autoImplicit false
set_option relaxedAutoImplicit false

namespace Directivity

inductive Error
  | noBands
  | bandNotFinite (band : Binary64)
  | bandsNotAscending (earlier later : Binary64)
  | attenuationLength (expected actual : Nat)
  | unknownInterpolation (code : UInt8)
  deriving DecidableEq

namespace Error

def message : Error → String
  | noBands => "Frequency axis must contain at least one band"
  | bandNotFinite band => s!"Frequency ({Layout.sentence.text band}) must be finite"
  | bandsNotAscending earlier later =>
    s!"Frequencies must be strictly ascending, but {Layout.sentence.text later} follows {Layout.sentence.text earlier}"
  | attenuationLength expected actual =>
    s!"Attenuation must have {expected} values (one per frequency), but has {actual}"
  | unknownInterpolation code =>
    s!"Unknown interpolation method ({code}), expected 0 (nearest) or 1 (bilinear)"

def agrees : Error → Error → Bool
  | noBands, noBands => true
  | bandNotFinite a, bandNotFinite b => a.sameValue b
  | bandsNotAscending a b, bandsNotAscending c d => a.sameValue c && b.sameValue d
  | attenuationLength a b, attenuationLength c d => a == c && b == d
  | unknownInterpolation a, unknownInterpolation b => a == b
  | _, _ => false

end Error

end Directivity
