import Mathlib.Data.List.Nodup
import Mathlib.Data.List.InsertIdx

set_option autoImplicit false
set_option relaxedAutoImplicit false

namespace Directivity

variable {α : Type} {R : α → α → Prop}

private theorem insertIdx_eq_take_cons_drop {l : List α} {i : Nat} (inside : i ≤ l.length) (x : α) :
    l.insertIdx i x = l.take i ++ x :: l.drop i := by
  induction l generalizing i with
  | nil => simp_all
  | cons a l ih =>
    cases i with
    | zero => simp
    | succ i => simpa using ih (by simpa using inside)

theorem pairwise_insertIdx {l : List α} {i : Nat} {x : α} (arranged : l.Pairwise R)
    (inside : i ≤ l.length) (before : ∀ a ∈ l.take i, R a x) (behind : ∀ b ∈ l.drop i, R x b) :
    (l.insertIdx i x).Pairwise R := by
  rw [← List.take_append_drop i l] at arranged
  obtain ⟨left, right, across⟩ := List.pairwise_append.mp arranged
  rw [insertIdx_eq_take_cons_drop inside]
  refine List.pairwise_append.mpr ⟨left, List.pairwise_cons.mpr ⟨behind, right⟩, ?_⟩
  intro a ha b hb
  rcases List.mem_cons.mp hb with rfl | hb
  · exact before a ha
  · exact across a ha b hb

private theorem pair_sublist_or {l : List α} {a b : α} (ha : a ∈ l) (hb : b ∈ l) (apart : a ≠ b) :
    [a, b].Sublist l ∨ [b, a].Sublist l := by
  induction l with
  | nil => simp at ha
  | cons c l ih =>
    rcases List.mem_cons.mp ha with rfl | ha'
    · have hb' : b ∈ l := List.mem_of_ne_of_mem apart.symm hb
      exact .inl ((List.singleton_sublist.mpr hb').cons_cons a)
    · rcases List.mem_cons.mp hb with rfl | hb'
      · exact .inr ((List.singleton_sublist.mpr ha').cons_cons b)
      · exact (ih ha' hb').imp (fun h => h.cons c) (fun h => h.cons c)

private theorem not_pair_sublist_swap {l : List α} {a b : α} (nodup : l.Nodup)
    (here : [a, b].Sublist l) : ¬ [b, a].Sublist l := by
  induction l with
  | nil => simp at here
  | cons c l ih =>
    obtain ⟨fresh, rest⟩ := List.nodup_cons.mp nodup
    intro there
    cases here with
    | cons _ here =>
      cases there with
      | cons _ there => exact ih rest here there
      | cons_cons _ there => exact fresh (here.subset (by simp))
    | cons_cons _ here =>
      cases there with
      | cons _ there => exact fresh (there.subset (by simp))
      | cons_cons _ there => exact fresh (here.subset (by simp))

/-- A relation that arranges the entries that sorting does not tell apart still arranges them after
sorting. -/
theorem pairwise_mergeSort_of_ties {le : α → α → Bool} {l : List α}
    (trans : ∀ a b c, le a b → le b c → le a c) (total : ∀ a b, le a b || le b a)
    (nodup : l.Nodup) (ties : l.Pairwise fun a b => le b a → R a b) :
    (l.mergeSort le).Pairwise fun a b => le a b ∧ (le b a → R a b) := by
  have sorted := List.pairwise_mergeSort trans total l
  have nodup' : (l.mergeSort le).Nodup := (List.mergeSort_perm l le).nodup_iff.mpr nodup
  rw [List.pairwise_iff_forall_sublist] at sorted ties ⊢
  intro a b here
  refine ⟨sorted here, fun tie => ?_⟩
  have apart : a ≠ b := by
    have pair := nodup'.sublist here
    simpa using pair
  have ha : a ∈ l := List.mem_mergeSort.mp (here.subset (by simp))
  have hb : b ∈ l := List.mem_mergeSort.mp (here.subset (by simp))
  -- A pair that stood the other way round before would still do so, as sorting is stable.
  rcases pair_sublist_or ha hb apart with forth | back
  · exact ties forth tie
  · exact absurd (List.pair_sublist_mergeSort trans total tie back)
      (not_pair_sublist_swap nodup' here)

end Directivity
