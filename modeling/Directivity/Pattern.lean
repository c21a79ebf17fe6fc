import Directivity.Event

set_option autoImplicit false
set_option relaxedAutoImplicit false

namespace Directivity

def oneByOne (attenuation : Binary64 → Direction → Logged Binary64)
    (frequencies : List Binary64) (direction : Direction) : Logged (List Binary64) :=
  frequencies.mapM fun frequency => attenuation frequency direction

/-- A directivity pattern, in decibels. A pattern that knows no better way answers several
frequencies one by one. -/
structure Pattern where
  attenuation : Binary64 → Direction → Logged Binary64
  attenuations : List Binary64 → Direction → Logged (List Binary64) := oneByOne attenuation

/-- A source that radiates equally in every direction. -/
structure Omnidirectional where
  deriving DecidableEq

def Omnidirectional.pattern (_ : Omnidirectional) : Pattern where
  attenuation _ _ := pure 0
  attenuations frequencies _ := pure (List.replicate frequencies.length 0)

end Directivity
