import Directivity.Proofs.Store.Entries

/-!
Admissions to a store that is changed in place.

Here an admission is a sequence of steps, each of which changes the arena or one of the indices, or
reports something. A refusal ends the sequence and takes nothing back, so what the steps before it
changed would stay. As all lengths are checked before the first change, an admission in place still
leaves what the admission of values leaves, refused or not.
-/

set_option autoImplicit false
set_option relaxedAutoImplicit false

namespace Directivity

/-- Steps on a store and its reports. A refusal ends them and leaves both as they are then. -/
abbrev InPlace :=
  ExceptT Error (StateM (Logged Store))

namespace Store

/-! ### Steps -/

/-- One more record in the arena, whose number no index has. -/
def push (record : Record) (store : Store) : Store :=
  have grown : store.arena.size ≤ (store.arena.push record).size := by simp
  { store with
    arena := store.arena.push record
    byElevation := widen grown store.byElevation
    byAzimuth := widen grown store.byAzimuth }

def extend (records : List Record) (store : Store) : Store :=
  have grown : store.arena.size ≤ (store.arena ++ records.toArray).size := by simp
  { store with
    arena := store.arena ++ records.toArray
    byElevation := widen grown store.byElevation
    byAzimuth := widen grown store.byAzimuth }

def changeIndex (arrangement : Arrangement) (store : Store)
    (change : Array (Fin store.arena.size) → Array (Fin store.arena.size)) : Store :=
  match arrangement with
  | .byElevation => { store with byElevation := change store.byElevation }
  | .byAzimuth => { store with byAzimuth := change store.byAzimuth }

/-- A number at a position of an index, if the arena has it. -/
def insertNumber (arrangement : Arrangement) (position number : Nat) (store : Store) : Store :=
  if known : number < store.arena.size then
    store.changeIndex arrangement (·.insertIdxIfInBounds position ⟨number, known⟩)
  else store

def appendNumbers (arrangement : Arrangement) (start : Nat) (store : Store) : Store :=
  store.changeIndex arrangement (· ++ ((List.finRange store.arena.size).drop start).toArray)

def sortIndex (arrangement : Arrangement) (store : Store) : Store :=
  store.changeIndex arrangement (arrange arrangement store.arena)

end Store

namespace InPlace

def current : InPlace Store :=
  return (← get).value

def change (step : Store → Store) : InPlace Unit :=
  modify fun state => ⟨step state.value, state.events⟩

def report (event : Event) : InPlace Unit :=
  modify fun state => ⟨state.value, state.events ++ [event]⟩

def after {α : Type} (state : Logged Store) (steps : InPlace α) : Except Error α × Logged Store :=
  steps.run.run state

def insert (record : Record) : InPlace Unit := do
  (← current).checkLength record
  match (← current).locate .byElevation record.direction with
  | .found _ => report (.alreadyStored record.direction)
  | .absent position =>
    let other := ((← current).locate .byAzimuth record.direction).position
    let number := (← current).size
    change (Store.push record)
    change (Store.insertNumber .byElevation position number)
    change (Store.insertNumber .byAzimuth other number)

def insertAll (records : List Record) : InPlace Unit := do
  records.forM fun record => do (← current).checkLength record
  let start := (← current).size
  change (Store.extend records)
  change (Store.appendNumbers .byElevation start)
  change (Store.appendNumbers .byAzimuth start)
  change (Store.sortIndex .byElevation)
  change (Store.sortIndex .byAzimuth)
  let all ← current
  report (.recordsAdded all.identifier (all.size - start) all.size)

section Steps

variable {α β : Type} (state : Logged Store)

theorem after_current : after state current = (.ok state.value, state) := rfl

theorem after_change (step : Store → Store) :
    after state (change step) = (.ok (), ⟨step state.value, state.events⟩) := rfl

theorem after_report (event : Event) :
    after state (report event) = (.ok (), ⟨state.value, state.events ++ [event]⟩) := rfl

theorem after_check (check : Except Error α) : after state (liftM check) = (check, state) := rfl

theorem after_bind (steps : InPlace α) (next : α → InPlace β) :
    after state (steps >>= next) =
      match after state steps with
      | (.ok a, state') => after state' (next a)
      | (.error error, state') => (.error error, state') := by
  obtain ⟨result, state', ran⟩ : ∃ result state', steps.run.run state = (result, state') :=
    ⟨_, _, rfl⟩
  rw [after, after, ExceptT.run_bind, StateT.run_bind, ran]
  cases result <;> rfl

end Steps

end InPlace

namespace Store

def left (store : Store) : Except Error (Logged Store) → Except Error Unit × Logged Store
  | .ok next => (.ok (), next)
  | .error error => (.error error, ⟨store, []⟩)

variable (store : Store)

theorem insertNumber_push (record : Record) (position other : Nat) :
    insertNumber .byAzimuth other store.size
        (insertNumber .byElevation position store.size (push record store)) =
      store.addAt record fun
        | .byElevation => position
        | .byAzimuth => other := by
  have known : store.size < (store.arena.push record).size := by simp [size]
  have elevation : insertNumber .byElevation position store.size (push record store) =
      (push record store).changeIndex .byElevation
        (·.insertIdxIfInBounds position ⟨store.size, known⟩) := dif_pos known
  rw [elevation]
  exact dif_pos known

open InPlace in
theorem after_insert (record : Record) :
    after ⟨store, []⟩ (InPlace.insert record) = store.left (store.insert record) := by
  simp only [InPlace.insert, after_bind, after_current, after_check]
  rw [insert]
  cases store.checkLength record with
  | error error => rfl
  | ok _ =>
    simp only [place]
    cases store.locate .byElevation record.direction with
    | found position => rfl
    | absent position =>
      simp only [after_bind, after_current, after_change, insertNumber_push]
      rfl

theorem drop_finRange (arena : Array Record) (records : List Record) :
    ((List.finRange (arena ++ records.toArray).size).drop arena.size).toArray =
      .ofFn fun i : Fin records.length => ⟨arena.size + i, add_lt_size_append arena records i⟩ := by
  apply Array.ext
  · simp
  · intro i _ _
    simp

theorem sortIndex_extend (records : List Record) :
    sortIndex .byAzimuth (sortIndex .byElevation
        (appendNumbers .byAzimuth store.size
          (appendNumbers .byElevation store.size (extend records store)))) =
      store.addAll records := by
  simp only [sortIndex, appendNumbers, changeIndex, extend, addAll, size, drop_finRange]

open InPlace in
theorem after_checks (records : List Record) :
    after ⟨store, []⟩ (records.forM fun record => do (← current).checkLength record) =
      (records.forM store.checkLength, ⟨store, []⟩) := by
  induction records with
  | nil => rfl
  | cons record records ih =>
    simp only [List.forM, after_bind, after_current, after_check]
    cases store.checkLength record with
    | error error => rfl
    | ok _ => exact ih

open InPlace in
theorem after_insertAll (records : List Record) :
    after ⟨store, []⟩ (InPlace.insertAll records) = store.left (store.insertAll records) := by
  rw [insertAll]
  simp only [InPlace.insertAll, after_bind, after_current, after_change, after_checks]
  cases records.forM store.checkLength with
  | error error => rfl
  | ok _ =>
    have added : (store.addAll records).size - store.size = records.length := by simp [size, addAll]
    simp only [sortIndex_extend, after_report, added]
    rfl

end Store

end Directivity
