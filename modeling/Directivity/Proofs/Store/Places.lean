import Directivity.Proofs.Store.Safety

set_option autoImplicit false
set_option relaxedAutoImplicit false

namespace Directivity.Store

variable {store : Store} {arrangement : Arrangement} {direction : Direction} {position : Nat}

theorem getElem?_keys {record : Record} (stands : store.at? arrangement position = some record) :
    (store.keys arrangement)[position]? = some (arrangement.key record.direction) := by
  rw [at?_eq] at stands
  simp [keys, circle, stands]

theorem Arranged.at?_of_found (arranged : store.Arranged)
    (found : store.locate arrangement direction = .found position) :
    position < store.size ∧
      ∃ record, store.at? arrangement position = some record ∧ record.direction = direction := by
  have fits := arranged.locate_fits arrangement direction
  rw [found] at fits
  cases fits with
  | found _ inside here _ =>
    have inside' : position < store.size := arranged.length_keys arrangement ▸ inside
    obtain ⟨record, stands⟩ := arranged.exists_at? arrangement inside'
    have key := getElem?_keys stands
    rw [List.getElem?_eq_getElem inside, here, Option.some_inj] at key
    exact ⟨inside', record, stands, (arrangement.key_injective key).symm⟩

theorem Arranged.compare_of_absent (arranged : store.Arranged)
    (absent : store.locate arrangement direction = .absent position) {i : Nat} {record : Record}
    (stands : store.at? arrangement i = some record) :
    arrangement.compare record.direction direction = if i < position then .lt else .gt := by
  have fits := arranged.locate_fits arrangement direction
  rw [absent] at fits
  have key := getElem?_keys stands
  rw [arrangement.compare_eq_compare_key]
  cases fits with
  | absent _ inside before behind =>
    split_ifs with early
    · refine compare_lt_iff_lt.mpr (before _ (List.mem_of_getElem? (i := i) ?_))
      rw [List.getElem?_take_of_lt early, key]
    · refine compare_gt_iff_gt.mpr (behind _ (List.mem_of_getElem? (i := i - position) ?_))
      rw [List.getElem?_drop, Nat.add_sub_cancel' (not_lt.mp early), key]

theorem Arranged.locate_eq_found_iff (arranged : store.Arranged) (arrangement : Arrangement)
    (direction : Direction) :
    (∃ position, store.locate arrangement direction = .found position) ↔
      direction ∈ store.directions := by
  constructor
  · rintro ⟨position, found⟩
    by_contra fresh
    obtain ⟨other, absent⟩ := arranged.locate_of_not_mem arrangement fresh
    rw [found] at absent
    cases absent
  · exact arranged.locate_of_mem arrangement

/-- In a store that calls can lead to, a search ends at a record of exactly the direction if there
is one, and otherwise at the position that parts the smaller directions from the greater ones; it
succeeds in both arrangements or in neither. -/
theorem locate_decides (reachable : store.Reachable) (direction : Direction) :
    (∀ arrangement,
      (direction ∈ store.directions → ∃ position < store.size,
        store.locate arrangement direction = .found position ∧
          ∃ record, store.at? arrangement position = some record ∧ record.direction = direction) ∧
      (direction ∉ store.directions → ∃ position ≤ store.size,
        store.locate arrangement direction = .absent position ∧
          ∀ i < store.size, ∃ record, store.at? arrangement i = some record ∧
            arrangement.compare record.direction direction = if i < position then .lt else .gt)) ∧
      ((∃ position, store.locate .byElevation direction = .found position) ↔
        ∃ position, store.locate .byAzimuth direction = .found position) := by
  have arranged := reachable.arranged
  refine ⟨fun arrangement => ⟨fun known => ?_, fun fresh => ?_⟩, ?_⟩
  · obtain ⟨position, found⟩ := arranged.locate_of_mem arrangement known
    obtain ⟨inside, here⟩ := arranged.at?_of_found found
    exact ⟨position, inside, found, here⟩
  · obtain ⟨position, absent⟩ := arranged.locate_of_not_mem arrangement fresh
    have inside := arranged.position_le arrangement direction
    rw [absent] at inside
    refine ⟨position, inside, absent, fun i within => ?_⟩
    obtain ⟨record, stands⟩ := arranged.exists_at? arrangement within
    exact ⟨record, stands, arranged.compare_of_absent absent stands⟩
  · rw [arranged.locate_eq_found_iff, arranged.locate_eq_found_iff]

theorem locate_decides_repeated :
    ∃ store : Store, store.Reachable ∧ store.size = 3 ∧
      (∃ position < 3, store.locate .byAzimuth ⟨0, 1⟩ = .found position) ∧
      ∃ position ≤ 3, store.locate .byElevation ⟨-0, 1⟩ = .absent position := by
  obtain ⟨store, reachable, -, directions⟩ :=
    exists_reachable_batch [⟨⟨0, 1⟩, #[0]⟩, ⟨⟨1, 0⟩, #[0]⟩, ⟨⟨0, 1⟩, #[0]⟩] (by decide)
  have size : store.size = 3 := by rw [← store.length_directions, directions]; rfl
  have known : (⟨0, 1⟩ : Direction) ∈ store.directions := by rw [directions]; decide +kernel
  have fresh : (⟨-0, 1⟩ : Direction) ∉ store.directions := by rw [directions]; decide +kernel
  obtain ⟨position, inside, found, -⟩ := ((locate_decides reachable _).1 .byAzimuth).1 known
  obtain ⟨other, inside', absent, -⟩ := ((locate_decides reachable _).1 .byElevation).2 fresh
  exact ⟨store, reachable, size, ⟨position, size ▸ inside, found⟩, other, size ▸ inside', absent⟩

end Directivity.Store
