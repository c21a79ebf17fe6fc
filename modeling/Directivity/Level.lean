import Directivity.Binary64.Arithmetic
import Directivity.Binary64.Elementary

set_option autoImplicit false
set_option relaxedAutoImplicit false

namespace Directivity.Elementary

def power (lib : Elementary) (level : Binary64) : Binary64 :=
  lib.exp10 (level / 10)

def level (lib : Elementary) (power : Binary64) : Binary64 :=
  10 * lib.log10 power

end Directivity.Elementary
