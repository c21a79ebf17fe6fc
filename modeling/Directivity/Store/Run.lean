import Directivity.Store.Admission

set_option autoImplicit false
set_option relaxedAutoImplicit false

namespace Directivity.Store

inductive Operation
  | insert (record : Record)
  | insertAll (records : List Record)
  | setInterpolation (interpolation : Interpolation)

/-- The store after an admission: one that is refused leaves the store as it was. -/
def settle (store : Store) : Except Error (Logged Store) → Store
  | .ok next => next.value
  | .error _ => store

def apply (store : Store) : Operation → Store
  | .insert record => store.settle (store.insert record)
  | .insertAll records => store.settle (store.insertAll records)
  | .setInterpolation interpolation => store.setInterpolation interpolation

def run (store : Store) (operations : List Operation) : Store :=
  operations.foldl apply store

/-- Some operations lead from a new store to this one. -/
def Reachable (store : Store) : Prop :=
  ∃ options identifier bands created operations,
    createWith options identifier bands = .ok created ∧ created.value.run operations = store

end Directivity.Store
