import Directivity.Error

set_option autoImplicit false
set_option relaxedAutoImplicit false

namespace Directivity

inductive Interpolation
  | nearest
  /-- The four directions around answer together, weighted in linear power. -/
  | bilinear
  deriving DecidableEq

instance : Inhabited Interpolation :=
  ⟨.bilinear⟩

def Interpolation.ofCode : UInt8 → Except Error Interpolation
  | 0 => .ok .nearest
  | 1 => .ok .bilinear
  | code => .error (.unknownInterpolation code)

structure StoreOptions where
  interpolation : Interpolation := default
  deriving DecidableEq

end Directivity
