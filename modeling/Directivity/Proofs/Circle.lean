import Directivity.Store.Cell
import Mathlib.Data.List.Sort

set_option autoImplicit false
set_option relaxedAutoImplicit false

namespace Directivity

variable {α κ : Type} [LinearOrder κ]

/-- The first thing whose key is not below that of `x`, or the first of all if there is none. -/
inductive FirstFrom (key : α → κ) (Among : α → Prop) (x y : α) : Prop
  | next (among : Among y) (from_x : key x ≤ key y)
      (first : ∀ z, Among z → key x ≤ key z → key y ≤ key z)
  | wrapped (among : Among y) (below : ∀ z, Among z → key z < key x)
      (first : ∀ z, Among z → key y ≤ key z)

/-- The last thing whose key is below that of `x`, or the last of all if there is none. -/
inductive LastBefore (key : α → κ) (Among : α → Prop) (x y : α) : Prop
  | previous (among : Among y) (before_x : key y < key x)
      (last : ∀ z, Among z → key z < key x → key z ≤ key y)
  | wrapped (among : Among y) (above : ∀ z, Among z → key x ≤ key z)
      (last : ∀ z, Among z → key z ≤ key y)

variable {key : α → κ} {Among : α → Prop} {x y z : α}

theorem FirstFrom.among (first : FirstFrom key Among x y) : Among y := by
  cases first <;> assumption

theorem LastBefore.among (last : LastBefore key Among x y) : Among y := by
  cases last <;> assumption

theorem FirstFrom.unique (injective : Function.Injective key) (left : FirstFrom key Among x y)
    (right : FirstFrom key Among x z) : y = z := by
  apply injective
  cases left with
  | next hy le first =>
    cases right with
    | next hz le' first' => exact le_antisymm (first z hz le') (first' y hy le)
    | wrapped hz below _ => exact absurd (below y hy) le.not_gt
  | wrapped hy below first =>
    cases right with
    | next hz le' _ => exact absurd (below z hz) le'.not_gt
    | wrapped hz _ first' => exact le_antisymm (first z hz) (first' y hy)

theorem LastBefore.unique (injective : Function.Injective key) (left : LastBefore key Among x y)
    (right : LastBefore key Among x z) : y = z := by
  apply injective
  cases left with
  | previous hy lt last =>
    cases right with
    | previous hz lt' last' => exact le_antisymm (last' y hy lt) (last z hz lt')
    | wrapped hz above _ => exact absurd lt (above y hy).not_gt
  | wrapped hy above last =>
    cases right with
    | previous hz lt' _ => exact absurd lt' (above z hz).not_gt
    | wrapped hz _ last' => exact le_antisymm (last' y hy) (last z hz)

theorem FirstFrom.eq_of_among (injective : Function.Injective key) (first : FirstFrom key Among x y)
    (among : Among x) : y = x :=
  first.unique injective (.next among le_rfl fun _ _ => id)

theorem FirstFrom.least (first : FirstFrom key Among x y)
    (outside : (∀ z, Among z → key x ≤ key z) ∨ ∀ z, Among z → key z < key x) :
    ∀ z, Among z → key y ≤ key z := by
  cases first with
  | next hy le first =>
    rcases outside with above | below
    · exact fun z hz => first z hz (above z hz)
    · exact absurd (below y hy) le.not_gt
  | wrapped _ _ first => exact first

theorem LastBefore.greatest (last : LastBefore key Among x y)
    (outside : (∀ z, Among z → key x ≤ key z) ∨ ∀ z, Among z → key z < key x) :
    ∀ z, Among z → key z ≤ key y := by
  cases last with
  | previous hy lt last =>
    rcases outside with above | below
    · exact absurd lt (above y hy).not_gt
    · exact fun z hz => last z hz (below z hz)
  | wrapped _ _ last => exact last

theorem FirstFrom.restrict {Few : α → Prop} (first : FirstFrom key Among x y)
    (sub : ∀ z, Few z → Among z) (few : Few y) : FirstFrom key Few x y := by
  cases first with
  | next _ from_x first => exact .next few from_x fun z hz => first z (sub z hz)
  | wrapped _ below first =>
    exact .wrapped few (fun z hz => below z (sub z hz)) fun z hz => first z (sub z hz)

theorem LastBefore.restrict {Few : α → Prop} (last : LastBefore key Among x y)
    (sub : ∀ z, Few z → Among z) (few : Few y) : LastBefore key Few x y := by
  cases last with
  | previous _ before_x last => exact .previous few before_x fun z hz => last z (sub z hz)
  | wrapped _ above last =>
    exact .wrapped few (fun z hz => above z (sub z hz)) fun z hz => last z (sub z hz)

section Ascending

variable {xs : List α} {position : Nat}

private theorem key_le_key (ascending : xs.Pairwise fun a b => key a < key b) {i j : Nat}
    (hij : i ≤ j) (hj : j < xs.length) : key xs[i] ≤ key xs[j] := by
  have sorted : (xs.map key).SortedLT :=
    List.sortedLT_iff_pairwise.mpr (List.pairwise_map.mpr ascending)
  have hj' : j < (xs.map key).length := by rwa [List.length_map]
  have le : (xs.map key)[i] ≤ (xs.map key)[j] := sorted.getElem_le_getElem_iff.mpr hij
  rwa [List.getElem_map, List.getElem_map] at le

theorem firstFrom_above (ascending : xs.Pairwise fun a b => key a < key b)
    (counted : ∀ (i : Nat) (h : i < xs.length), key xs[i] < key x ↔ i < position)
    (inside : Store.above xs.length position < xs.length) :
    FirstFrom key (· ∈ xs) x xs[Store.above xs.length position] := by
  by_cases last : position < xs.length
  · simp only [Store.above, if_pos last] at inside ⊢
    refine .next (List.getElem_mem _) (not_lt.mp fun below => ?_) ?_
    · exact absurd ((counted position last).mp below) (lt_irrefl _)
    · intro z member le
      obtain ⟨i, hi, rfl⟩ := List.getElem_of_mem member
      refine key_le_key ascending ?_ hi
      exact not_lt.mp fun early => absurd ((counted i hi).mpr early) le.not_gt
  · simp only [Store.above, if_neg last] at inside ⊢
    refine .wrapped (List.getElem_mem _) ?_ ?_
    · intro z member
      obtain ⟨i, hi, rfl⟩ := List.getElem_of_mem member
      exact (counted i hi).mpr (by omega)
    · intro z member
      obtain ⟨i, hi, rfl⟩ := List.getElem_of_mem member
      exact key_le_key ascending (Nat.zero_le i) hi

theorem lastBefore_below (ascending : xs.Pairwise fun a b => key a < key b)
    (counted : ∀ (i : Nat) (h : i < xs.length), key xs[i] < key x ↔ i < position)
    (inside : Store.below xs.length position < xs.length) :
    LastBefore key (· ∈ xs) x xs[Store.below xs.length position] := by
  by_cases first : position = 0
  · simp only [Store.below, if_pos first] at inside ⊢
    refine .wrapped (List.getElem_mem _) ?_ ?_
    · intro z member
      obtain ⟨i, hi, rfl⟩ := List.getElem_of_mem member
      exact not_lt.mp fun below => absurd ((counted i hi).mp below) (by omega)
    · intro z member
      obtain ⟨i, hi, rfl⟩ := List.getElem_of_mem member
      exact key_le_key ascending (by omega) inside
  · simp only [Store.below, if_neg first] at inside ⊢
    refine .previous (List.getElem_mem _) ((counted _ inside).mpr (by omega)) ?_
    intro z member below
    obtain ⟨i, hi, rfl⟩ := List.getElem_of_mem member
    have early := (counted i hi).mp below
    exact key_le_key ascending (by omega) inside

end Ascending

end Directivity
