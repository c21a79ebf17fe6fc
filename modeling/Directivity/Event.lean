import Directivity.Decimal.Layout
import Directivity.Direction

set_option autoImplicit false
set_option relaxedAutoImplicit false

namespace Directivity

inductive Severity
  | trace
  | debug
  | info
  deriving DecidableEq

inductive Event
  /-- A frequency is no band, and the nearest band stands in for it. -/
  | nearestBand (frequency band : Binary64)
  | storeCreated (identifier : Int32) (bands : Nat)
  | alreadyStored (direction : Direction)
  | recordsAdded (identifier : Int32) (added total : Nat)
  | noCell (direction : Direction)
  | patternLoaded (identifier : Int32) (records : Nat)
  | pointsTaken (count : Nat)
  | trianglesTaken (count : Nat)
  | message (text : String)
  deriving DecidableEq

namespace Event

def severity : Event → Severity
  | nearestBand .. | alreadyStored .. | noCell .. => .trace
  | storeCreated .. | recordsAdded .. | pointsTaken .. | trianglesTaken .. => .debug
  | patternLoaded .. | message .. => .info

def directionText (d : Direction) : String :=
  s!"theta={Layout.sentence.text d.elevation}, phi={Layout.sentence.text d.azimuth}"

def text : Event → String
  | nearestBand frequency band =>
    s!"{Layout.sentence.text frequency} Hz is not a band, using {Layout.sentence.text band} Hz."
  | storeCreated identifier bands =>
    s!"Directivity {identifier} created with {bands} frequency bands."
  | alreadyStored direction => s!"Directivity record at {directionText direction} already exists."
  | recordsAdded identifier added total =>
    s!"Directivity {identifier}: {added} records added, {total} in total."
  | noCell direction =>
    s!"No directivity cell around {directionText direction}, attenuation is zero."
  | patternLoaded identifier records =>
    s!"Directivity {identifier} loaded with {records} records."
  | pointsTaken count => s!"{count} point records taken."
  | trianglesTaken count => s!"{count} triangle records taken."
  | message content => content

end Event

/-- A value and the events reported on the way to it, in order. -/
structure Logged (α : Type) where
  value : α
  events : List Event

namespace Logged

def report (event : Event) : Logged Unit :=
  ⟨(), [event]⟩

instance : Monad Logged where
  pure value := ⟨value, []⟩
  bind first next := ⟨(next first.value).value, first.events ++ (next first.value).events⟩

variable {α β : Type}

@[simp]
theorem value_pure (a : α) : (pure a : Logged α).value = a := rfl

@[simp]
theorem events_pure (a : α) : (pure a : Logged α).events = [] := rfl

@[simp]
theorem value_bind (first : Logged α) (next : α → Logged β) :
    (first >>= next).value = (next first.value).value := rfl

@[simp]
theorem value_map (f : α → β) (x : Logged α) : (f <$> x).value = f x.value := rfl

@[simp]
theorem events_bind (first : Logged α) (next : α → Logged β) :
    (first >>= next).events = first.events ++ (next first.value).events := rfl

@[simp]
theorem events_map (f : α → β) (x : Logged α) : (f <$> x).events = x.events :=
  List.append_nil x.events

instance : LawfulMonad Logged :=
  LawfulMonad.mk' Logged
    (fun x => congrArg (Logged.mk x.value) (List.append_nil x.events))
    (fun _ _ => rfl)
    (fun x _ _ => congrArg (Logged.mk _) (List.append_assoc x.events _ _))

theorem value_mapM (f : α → Logged β) (xs : List α) :
    (xs.mapM f).value = xs.map fun x => (f x).value := by
  induction xs with
  | nil => rfl
  | cons x xs ih => simp [List.mapM_cons, ih]

theorem events_mapM (f : α → Logged β) (xs : List α) :
    (xs.mapM f).events = xs.flatMap fun x => (f x).events := by
  induction xs with
  | nil => rfl
  | cons x xs ih => simp [List.mapM_cons, ih]

end Logged

end Directivity
