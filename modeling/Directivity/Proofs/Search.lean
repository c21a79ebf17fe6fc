import Directivity.Search
import Mathlib.Order.Compare
import Mathlib.Data.List.Sort

set_option autoImplicit false
set_option relaxedAutoImplicit false

namespace Directivity

variable {α β κ : Type}

/-- The bounds of a search keep their sides: what comes before the lower one holds, and what comes
from the upper one on fails. -/
private theorem cutBetween_spec (xs : Array α) (holds : α → Bool) (low high : Nat)
    (inside : high ≤ xs.size) (ordered : low ≤ high)
    (first : ∀ (i j : Nat) (hj : j < xs.size) (hij : i ≤ j), holds xs[j] → holds xs[i])
    (before : ∀ (i : Nat) (h : i < xs.size), i < low → holds xs[i])
    (behind : ∀ (i : Nat) (h : i < xs.size), high ≤ i → ¬ holds xs[i]) :
    cutBetween xs holds low high inside ≤ xs.size ∧
      ∀ (i : Nat) (h : i < xs.size), holds xs[i] ↔ i < cutBetween xs holds low high inside := by
  fun_induction cutBetween xs holds low high inside with
  | case1 low high inside hlt hmid ih =>
    refine ih (by omega) first ?_ behind
    intro i hi hlow
    exact first i ((low + high) / 2) (by omega) (by omega) hmid
  | case2 low high inside hlt hmid ih =>
    refine ih (by omega) first before ?_
    intro i hi hhigh hold
    exact hmid (first ((low + high) / 2) i hi hhigh hold)
  | case3 low high inside hge =>
    have met : low = high := by omega
    subst met
    refine ⟨inside, ?_⟩
    intro i hi
    constructor
    · intro hold
      by_contra hn
      exact behind i hi (by omega) hold
    · intro hlow
      exact before i hi hlow

theorem holds_iff_lt_cut {xs : Array α} {holds : α → Bool}
    (first : xs.toList.Pairwise fun a b => holds b → holds a) :
    cut xs holds ≤ xs.size ∧ ∀ (i : Nat) (h : i < xs.size), holds xs[i] ↔ i < cut xs holds := by
  refine cutBetween_spec xs holds 0 xs.size _ (Nat.zero_le _) ?_ (by omega) (by omega)
  intro i j hj hij hold
  rcases Nat.eq_or_lt_of_le hij with rfl | hlt
  · exact hold
  · have apart := List.pairwise_iff_getElem.mp first i j (by simp; omega) (by simpa) hlt
    simpa using apart (by simpa using hold)

private theorem cutBetween_map (f : α → β) (xs : Array α) (holds : β → Bool) (low high : Nat)
    (inside : high ≤ xs.size) :
    cutBetween (xs.map f) holds low high (by simpa using inside) =
      cutBetween xs (fun x => holds (f x)) low high inside := by
  fun_induction cutBetween xs (fun x => holds (f x)) low high inside with
  | case1 low high inside hlt hmid ih =>
    rw [cutBetween, dif_pos hlt, if_pos (by simpa using hmid), ih]
  | case2 low high inside hlt hmid ih =>
    rw [cutBetween, dif_pos hlt, if_neg (by simpa using hmid), ih]
  | case3 low high inside hge =>
    rw [cutBetween, dif_neg hge]

theorem cut_map (f : α → β) (xs : Array α) (holds : β → Bool) :
    cut (xs.map f) holds = cut xs fun x => holds (f x) := by
  simp only [cut, Array.size_map]
  exact cutBetween_map f xs holds 0 xs.size (Nat.le_refl _)

theorem locate_map (f : α → β) (xs : Array α) (order : β → Ordering) :
    locate (xs.map f) order = locate xs fun x => order (f x) := by
  simp only [locate, cut_map, Array.getElem?_map, Option.any_map]

inductive Place.Fits [LinearOrder κ] (keys : List κ) (key : κ) : Place → Prop
  | found (position : Nat) (inside : position < keys.length) (here : keys[position] = key)
      (behind : ∀ other ∈ keys.drop (position + 1), key < other) : Fits keys key (.found position)
  | absent (position : Nat) (inside : position ≤ keys.length)
      (before : ∀ other ∈ keys.take position, other < key)
      (behind : ∀ other ∈ keys.drop position, key < other) : Fits keys key (.absent position)

namespace Place.Fits

variable [LinearOrder κ] {keys : List κ} {key : κ} {position : Nat}

theorem mem_of_found (fits : (Place.found position).Fits keys key) : key ∈ keys := by
  cases fits with
  | found _ inside here _ => exact here ▸ List.getElem_mem inside

theorem not_mem_of_absent (fits : (Place.absent position).Fits keys key) : key ∉ keys := by
  cases fits with
  | absent _ _ before behind =>
    intro member
    rw [← List.take_append_drop position keys] at member
    rcases List.mem_append.mp member with member | member
    · exact lt_irrefl _ (before key member)
    · exact lt_irrefl _ (behind key member)

theorem position_le {place : Place} (fits : place.Fits keys key) :
    place.position ≤ keys.length := by
  cases fits with
  | found _ inside => exact inside.le
  | absent _ inside => exact inside

theorem lt_iff_lt_position {place : Place} (ascending : keys.Pairwise (· < ·))
    (fits : place.Fits keys key) :
    place.position ≤ keys.length ∧
      ∀ (i : Nat) (h : i < keys.length), keys[i] < key ↔ i < place.position := by
  refine ⟨fits.position_le, ?_⟩
  cases fits with
  | found position inside here _ =>
    simp only [Place.position]
    intro i h
    subst here
    exact (List.sortedLT_iff_pairwise.mpr ascending).getElem_lt_getElem_iff
  | absent position inside before behind =>
    simp only [Place.position]
    intro i h
    constructor
    · intro less
      by_contra later
      have member : keys[i] ∈ keys.drop position := by
        rw [List.mem_drop_iff_getElem]
        exact ⟨i - position, by omega, by congr 1; omega⟩
      exact lt_asymm less (behind _ member)
    · intro earlier
      have member : keys[i] ∈ keys.take position := by
        rw [List.mem_take_iff_getElem]
        exact ⟨i, by omega, rfl⟩
      exact before _ member

end Place.Fits

section Ascending

variable [LinearOrder κ] {keys : Array κ}

private theorem le_iff_lt_cut (ascending : keys.toList.Pairwise (· ≤ ·)) (key : κ) :
    cut keys (fun other => (compare other key).isLE) ≤ keys.size ∧
      ∀ (i : Nat) (h : i < keys.size),
        keys[i] ≤ key ↔ i < cut keys fun other => (compare other key).isLE := by
  have le_iff : ∀ other, (compare other key).isLE ↔ other ≤ key := fun other => by
    rw [← compare_le_iff_le, Ordering.isLE_iff_ne_gt]
  have first : keys.toList.Pairwise fun a b =>
      (compare b key).isLE → (compare a key).isLE := by
    refine ascending.imp ?_
    intro a b hab hb
    exact (le_iff a).mpr (hab.trans ((le_iff b).mp hb))
  have parts := holds_iff_lt_cut first
  exact ⟨parts.1, fun i h => (le_iff keys[i]).symm.trans (parts.2 i h)⟩

theorem locate_fits (keys : Array κ) (ascending : keys.toList.Pairwise (· ≤ ·)) (key : κ) :
    (locate keys fun other => compare other key).Fits keys.toList key := by
  obtain ⟨inside, before⟩ := le_iff_lt_cut ascending key
  have behind : ∀ other ∈ keys.toList.drop (cut keys fun other => (compare other key).isLE),
      key < other := by
    intro other member
    obtain ⟨i, hi, rfl⟩ := List.getElem_of_mem member
    simp only [List.length_drop, Array.length_toList] at hi
    simp only [List.getElem_drop, Array.getElem_toList]
    exact not_le.mp fun le => absurd ((before _ (by omega)).mp le) (by omega)
  unfold locate
  split
  next hcut =>
    rw [hcut] at behind
    exact .absent 0 (Nat.zero_le _) (by simp) behind
  next last hcut =>
    rw [hcut] at inside before behind
    have here := (before last (by omega)).mpr (by omega)
    rw [Array.getElem?_eq_getElem (by omega)]
    simp only [Option.any_some, Ordering.isEq_iff_eq_eq, compare_eq_iff_eq]
    split_ifs with same
    · exact .found last (by simp; omega) (by simpa using same) behind
    · refine .absent (last + 1) (by simpa using inside) ?_ behind
      intro other member
      obtain ⟨i, hi, rfl⟩ := List.getElem_of_mem member
      simp only [List.length_take, Array.length_toList] at hi
      rw [List.getElem_take]
      have sorted := List.sortedLE_iff_pairwise.mpr ascending
      have hlast : last < keys.toList.length := by
        rw [Array.length_toList]
        omega
      have upto : keys.toList[i] ≤ keys.toList[last] :=
        sorted.getElem_le_getElem_of_le (show i ≤ last by omega)
      exact upto.trans_lt (lt_of_le_of_ne here same)

end Ascending

end Directivity
