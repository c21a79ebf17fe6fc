import Directivity.Store.Basic

set_option autoImplicit false
set_option relaxedAutoImplicit false

namespace Directivity.Store

def checkLength (store : Store) (record : Record) : Except Error Unit :=
  if record.attenuation.size = store.axis.size then .ok ()
  else .error (.attenuationLength store.axis.size record.attenuation.size)

/-- Numbers in a smaller arena, as numbers in a larger one. -/
def widen {small large : Nat} (grown : small ≤ large) (numbers : Array (Fin small)) :
    Array (Fin large) :=
  numbers.map (Fin.castLE grown)

def addAt (store : Store) (record : Record) (position : Arrangement → Nat) : Store :=
  have grown : store.arena.size ≤ (store.arena.push record).size := by simp
  let number : Fin (store.arena.push record).size := ⟨store.arena.size, by simp⟩
  { store with
    arena := store.arena.push record
    byElevation :=
      (widen grown store.byElevation).insertIdxIfInBounds (position .byElevation) number
    byAzimuth := (widen grown store.byAzimuth).insertIdxIfInBounds (position .byAzimuth) number }

def place (store : Store) (record : Record) : Logged Store :=
  match store.locate .byElevation record.direction with
  | .found _ => do
    Logged.report (.alreadyStored record.direction)
    return store
  | .absent position =>
    let other := (store.locate .byAzimuth record.direction).position
    return store.addAt record fun
      | .byElevation => position
      | .byAzimuth => other

def insert (store : Store) (record : Record) : Except Error (Logged Store) := do
  store.checkLength record
  return store.place record

/-- Numbers in an arrangement of the records of an arena, those of equal directions in the order in
which they are given. -/
def arrange (arrangement : Arrangement) (arena : Array Record)
    (numbers : Array (Fin arena.size)) : Array (Fin arena.size) :=
  (numbers.toList.mergeSort fun a b =>
    (arrangement.compare arena[a].direction arena[b].direction).isLE).toArray

def addAll (store : Store) (records : List Record) : Store :=
  let arena := store.arena ++ records.toArray
  have grown : store.arena.size ≤ arena.size := by simp [arena]
  let added : Array (Fin arena.size) :=
    .ofFn fun i : Fin records.length => ⟨store.arena.size + i, by simp [arena]⟩
  { store with
    arena
    byElevation := arrange .byElevation arena (widen grown store.byElevation ++ added)
    byAzimuth := arrange .byAzimuth arena (widen grown store.byAzimuth ++ added) }

def insertAll (store : Store) (records : List Record) : Except Error (Logged Store) := do
  records.forM store.checkLength
  return do
    let all := store.addAll records
    Logged.report (.recordsAdded store.identifier records.length all.size)
    return all

end Directivity.Store
