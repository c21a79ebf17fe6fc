/-!
Halving search in an array.

If a predicate holds on the first entries of an array and on no others, `cut` is the number of those
entries: the position before which it holds and from which it fails. In an array in ascending order,
`locate` finds where something belongs.
-/

set_option autoImplicit false
set_option relaxedAutoImplicit false

namespace Directivity

/-- The cut between the positions `low` and `high`, where the predicate holds before `low` and fails
from `high`. -/
def cutBetween {α : Type} (xs : Array α) (holds : α → Bool) (low high : Nat)
    (inside : high ≤ xs.size) : Nat :=
  if h : low < high then
    if holds xs[(low + high) / 2] then cutBetween xs holds ((low + high) / 2 + 1) high inside
    else cutBetween xs holds low ((low + high) / 2) (by omega)
  else low
  termination_by high - low

def cut {α : Type} (xs : Array α) (holds : α → Bool) : Nat :=
  cutBetween xs holds 0 xs.size (Nat.le_refl _)

inductive Place
  /-- It is there, and its last entry stands at this position. -/
  | found (position : Nat)
  | absent (position : Nat)
  deriving DecidableEq

def Place.position : Place → Nat
  | found position => position
  | absent position => position

/-- The place of something of which `order` tells how an entry compares with it: before the place
come the entries that do not follow it, and the last of them tells whether it is there. -/
def locate {α : Type} (xs : Array α) (order : α → Ordering) : Place :=
  match cut xs fun x => (order x).isLE with
  | 0 => .absent 0
  | last + 1 =>
    if (xs[last]?).any fun x => (order x).isEq then .found last else .absent (last + 1)

end Directivity
