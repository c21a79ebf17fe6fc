import Directivity.Proofs.Order
import Directivity.Store.Run
import Mathlib.Data.List.FinRange
import Mathlib.Data.List.InsertIdx

/-!
The entries of a store: numbers with their records, in an arrangement.

The type of the numbers changes with the arena. Entries do not change, so what an admission does to
a store is said of its entries: one record is inserted at a position of either arrangement, and
several are added behind the others and sorted.
-/

set_option autoImplicit false
set_option relaxedAutoImplicit false

namespace Directivity

variable {α : Type}

/-- Numbers of an arena, and what has them there. -/
def entriesOf (arena : Array α) (numbers : Array (Fin arena.size)) : List (Nat × α) :=
  numbers.toList.map fun number => (number.val, arena[number])

def numbered (first : Nat) (xs : List α) : List (Nat × α) :=
  (xs.zipIdx first).map Prod.swap

theorem map_fst_numbered (first : Nat) (xs : List α) :
    (numbered first xs).map Prod.fst = List.range' first xs.length := by
  simp [numbered, Function.comp_def]

theorem map_snd_numbered (first : Nat) (xs : List α) :
    (numbered first xs).map Prod.snd = xs := by
  simp [numbered, Function.comp_def]

theorem nodup_numbered (first : Nat) (xs : List α) : (numbered first xs).Nodup := by
  refine List.Nodup.of_map Prod.fst ?_
  rw [map_fst_numbered]
  exact List.nodup_range'

theorem numbered_append (first : Nat) (xs ys : List α) :
    numbered first (xs ++ ys) = numbered first xs ++ numbered (first + xs.length) ys := by
  simp [numbered, List.zipIdx_append]

private theorem entriesOf_widen {small large : Array α} (grown : small.size ≤ large.size)
    (kept : ∀ (i : Nat) (h : i < small.size), large[i] = small[i])
    (numbers : Array (Fin small.size)) :
    entriesOf large (Store.widen grown numbers) = entriesOf small numbers := by
  simp only [entriesOf, Store.widen, Array.toList_map, List.map_map]
  refine List.map_congr_left fun number _ => ?_
  simp [kept]

private theorem entriesOf_insertIdxIfInBounds (arena : Array α)
    (numbers : Array (Fin arena.size)) (i : Nat) (number : Fin arena.size) :
    entriesOf arena (numbers.insertIdxIfInBounds i number) =
      (entriesOf arena numbers).insertIdx i (number.val, arena[number]) := by
  cases numbers
  simp [entriesOf, List.map_insertIdx]

private theorem entriesOf_arrange (arrangement : Arrangement) (arena : Array Record)
    (numbers : Array (Fin arena.size)) :
    entriesOf arena (Store.arrange arrangement arena numbers) =
      (entriesOf arena numbers).mergeSort fun a b =>
        (arrangement.compare a.2.direction b.2.direction).isLE := by
  simp only [entriesOf, Store.arrange]
  exact List.map_mergeSort fun _ _ _ _ => rfl

theorem add_lt_size_append (arena : Array α) (xs : List α) (i : Fin xs.length) :
    arena.size + i < (arena ++ xs.toArray).size := by
  simp

private theorem entriesOf_ofFn_append (arena : Array α) (xs : List α) :
    entriesOf (arena ++ xs.toArray)
        (.ofFn fun i : Fin xs.length => ⟨arena.size + i, add_lt_size_append arena xs i⟩) =
      numbered arena.size xs := by
  refine List.ext_getElem (by simp [entriesOf, numbered]) ?_
  intro i _ _
  simp [entriesOf, numbered]

namespace Store

def entries (store : Store) (arrangement : Arrangement) : List (Nat × Record) :=
  entriesOf store.arena (store.index arrangement)

def directions (store : Store) : List Direction :=
  store.arena.toList.map Record.direction

theorem length_directions (store : Store) : store.directions.length = store.size := by
  rw [directions, List.length_map, Array.length_toList, size]

theorem records_eq_map_entries (store : Store) (arrangement : Arrangement) :
    store.records arrangement = (store.entries arrangement).map Prod.snd := by
  simp [records, entries, entriesOf]

@[simp]
theorem arena_addAt (store : Store) (record : Record) (position : Arrangement → Nat) :
    (store.addAt record position).arena = store.arena.push record := rfl

@[simp]
theorem arena_addAll (store : Store) (records : List Record) :
    (store.addAll records).arena = store.arena ++ records.toArray := rfl

theorem entries_addAt (store : Store) (record : Record) (position : Arrangement → Nat)
    (arrangement : Arrangement) :
    (store.addAt record position).entries arrangement =
      (store.entries arrangement).insertIdx (position arrangement) (store.size, record) := by
  have grown : store.arena.size ≤ (store.arena.push record).size := by simp
  have kept : ∀ (i : Nat) (h : i < store.arena.size),
      (store.arena.push record)[i] = store.arena[i] := fun i h =>
    Array.getElem_push_lt h
  cases arrangement <;>
    simp [addAt, entries, index, entriesOf_insertIdxIfInBounds, entriesOf_widen _ kept, size]

theorem entries_addAll (store : Store) (records : List Record) (arrangement : Arrangement) :
    (store.addAll records).entries arrangement =
      (store.entries arrangement ++ numbered store.size records).mergeSort fun a b =>
        (arrangement.compare a.2.direction b.2.direction).isLE := by
  have grown : store.arena.size ≤ (store.arena ++ records.toArray).size := by simp
  have kept : ∀ (i : Nat) (h : i < store.arena.size),
      (store.arena ++ records.toArray)[i] = store.arena[i] := fun i h =>
    Array.getElem_append_left h
  have append : ∀ (arena : Array Record) (xs ys : Array (Fin arena.size)),
      entriesOf arena (xs ++ ys) = entriesOf arena xs ++ entriesOf arena ys := fun _ _ _ => by
    simp [entriesOf]
  cases arrangement <;>
    simp only [addAll, entries, index, entriesOf_arrange, append, entriesOf_widen _ kept,
      entriesOf_ofFn_append, size]

end Store

end Directivity
