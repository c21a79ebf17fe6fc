import Directivity.Binary64.Basic

set_option autoImplicit false
set_option relaxedAutoImplicit false

namespace Directivity

structure Elementary where
  sin : Binary64 → Binary64
  cos : Binary64 → Binary64
  acos : Binary64 → Binary64
  exp10 : Binary64 → Binary64
  log10 : Binary64 → Binary64
  log2 : Binary64 → Binary64

namespace Elementary

def onPattern (f : Float → Float) (x : Binary64) : Binary64 :=
  ⟨(f (Float.ofBits x.bits)).toBits⟩

def machine : Elementary where
  sin := onPattern Float.sin
  cos := onPattern Float.cos
  acos := onPattern Float.acos
  exp10 := onPattern (Float.pow 10)
  log10 := onPattern Float.log10
  log2 := onPattern Float.log2

end Elementary

end Directivity
