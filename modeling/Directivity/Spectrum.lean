set_option autoImplicit false
set_option relaxedAutoImplicit false

namespace Directivity

structure SpectrumSelection where
  vehicle : String
  reference : String
  runningCondition : Int32
  sourceHeight : String
  version : Int32
  frequency : Int32
  deriving DecidableEq

end Directivity
