import Directivity.Proofs.Arranging
import Directivity.Proofs.Search
import Directivity.Proofs.Store.Admission
import Directivity.Proofs.Store.Entries

/-!
Every run of a store keeps it arranged.

The indices list the numbers of the arena, each once, by the keys of their records and then by
themselves. An admission at once adds greater numbers behind the others, so the stability of sorting
keeps the numbers of one direction in order. An admission of one record finds its position in either
index; both searches agree on whether the direction is there, as both indices list the same records.
-/

set_option autoImplicit false
set_option relaxedAutoImplicit false

namespace Directivity

def Arrangement.entryKey (arrangement : Arrangement) (entry : Nat × Record) : (ℤ ×ₗ ℤ) ×ₗ ℕ :=
  toLex (arrangement.key entry.2.direction, entry.1)

namespace Store

/-- Both indices list the whole arena, by key and then by number, and every record has one value per
band. -/
structure Arranged (store : Store) : Prop where
  perm : ∀ arrangement, (store.entries arrangement).Perm (numbered 0 store.arena.toList)
  ascending : ∀ arrangement, (store.entries arrangement).Pairwise fun a b =>
    arrangement.entryKey a < arrangement.entryKey b
  lengths : ∀ record ∈ store.arena, record.attenuation.size = store.axis.size

variable {store : Store}

namespace Arranged

theorem records_perm (arranged : store.Arranged) (arrangement : Arrangement) :
    (store.records arrangement).Perm store.arena.toList := by
  rw [records_eq_map_entries]
  simpa [map_snd_numbered] using (arranged.perm arrangement).map Prod.snd

theorem numbers_perm (arranged : store.Arranged) (arrangement : Arrangement) :
    ((store.entries arrangement).map Prod.fst).Perm (List.range store.size) := by
  have perm := (arranged.perm arrangement).map Prod.fst
  rwa [map_fst_numbered, ← List.range_eq_range'] at perm

end Arranged

/-- The directions of the records in an arrangement. -/
def circle (store : Store) (arrangement : Arrangement) : List Direction :=
  (store.records arrangement).map Record.direction

def keys (store : Store) (arrangement : Arrangement) : List (ℤ ×ₗ ℤ) :=
  (store.circle arrangement).map arrangement.key

theorem Arranged.circle_perm (arranged : store.Arranged) (arrangement : Arrangement) :
    (store.circle arrangement).Perm store.directions :=
  (arranged.records_perm arrangement).map Record.direction

theorem Arranged.length_circle (arranged : store.Arranged) (arrangement : Arrangement) :
    (store.circle arrangement).length = store.size :=
  (arranged.circle_perm arrangement).length_eq.trans store.length_directions

theorem keys_eq_map_entries (store : Store) (arrangement : Arrangement) :
    store.keys arrangement =
      (store.entries arrangement).map fun entry => arrangement.key entry.2.direction := by
  simp [keys, circle, records_eq_map_entries]

theorem Arranged.mem_keys (arranged : store.Arranged) (arrangement : Arrangement)
    (direction : Direction) :
    arrangement.key direction ∈ store.keys arrangement ↔ direction ∈ store.directions := by
  rw [keys, List.mem_map_of_injective arrangement.key_injective,
    (arranged.circle_perm arrangement).mem_iff]

theorem Arranged.keys_ascending (arranged : store.Arranged) (arrangement : Arrangement) :
    (store.keys arrangement).Pairwise (· ≤ ·) := by
  rw [keys_eq_map_entries, List.pairwise_map]
  refine (arranged.ascending arrangement).imp ?_
  intro a b before
  rcases Prod.Lex.toLex_lt_toLex.mp before with less | ⟨same, _⟩
  · exact less.le
  · exact same.le

theorem locate_eq_locate_keys (store : Store) (arrangement : Arrangement) (direction : Direction) :
    store.locate arrangement direction =
      Directivity.locate (store.keys arrangement).toArray fun key =>
        Ord.compare key (arrangement.key direction) := by
  have keys : (store.keys arrangement).toArray =
      (store.index arrangement).map fun number =>
        arrangement.key store.arena[number].direction := by
    apply Array.ext'
    simp [Store.keys, circle, records, Function.comp_def]
  rw [keys, locate_map]
  simp only [locate, Arrangement.compare_eq_compare_key]

theorem Arranged.locate_fits (arranged : store.Arranged) (arrangement : Arrangement)
    (direction : Direction) :
    (store.locate arrangement direction).Fits (store.keys arrangement)
      (arrangement.key direction) := by
  rw [locate_eq_locate_keys]
  simpa using Directivity.locate_fits (store.keys arrangement).toArray
    (by simpa using arranged.keys_ascending arrangement) (arrangement.key direction)

theorem Arranged.locate_of_mem (arranged : store.Arranged) (arrangement : Arrangement)
    {direction : Direction} (known : direction ∈ store.directions) :
    ∃ position, store.locate arrangement direction = .found position := by
  have fits := arranged.locate_fits arrangement direction
  cases place : store.locate arrangement direction with
  | found position => exact ⟨position, rfl⟩
  | absent position =>
    rw [place] at fits
    exact absurd ((arranged.mem_keys arrangement direction).mpr known) fits.not_mem_of_absent

theorem Arranged.locate_of_not_mem (arranged : store.Arranged) (arrangement : Arrangement)
    {direction : Direction} (fresh : direction ∉ store.directions) :
    ∃ position, store.locate arrangement direction = .absent position := by
  have fits := arranged.locate_fits arrangement direction
  cases place : store.locate arrangement direction with
  | found position =>
    rw [place] at fits
    exact absurd ((arranged.mem_keys arrangement direction).mp fits.mem_of_found) fresh
  | absent position => exact ⟨position, rfl⟩

def added (store : Store) (record : Record) : Store :=
  store.addAt record fun arrangement => (store.locate arrangement record.direction).position

theorem Arranged.place_of_mem (arranged : store.Arranged) {record : Record}
    (known : record.direction ∈ store.directions) :
    store.place record = do
      Logged.report (.alreadyStored record.direction)
      return store := by
  obtain ⟨position, found⟩ := arranged.locate_of_mem .byElevation known
  rw [place, found]

theorem Arranged.place_of_not_mem (arranged : store.Arranged) {record : Record}
    (fresh : record.direction ∉ store.directions) :
    store.place record = pure (store.added record) := by
  obtain ⟨position, absent⟩ := arranged.locate_of_not_mem .byElevation fresh
  rw [place, absent, added]
  dsimp only
  congr 2
  funext arrangement
  cases arrangement with
  | byElevation => rw [absent]; rfl
  | byAzimuth => rfl

theorem Arranged.apply_insert (arranged : store.Arranged) (record : Record) :
    store.apply (.insert record) =
      if record.attenuation.size = store.axis.size ∧ record.direction ∉ store.directions then
        store.added record
      else store := by
  rw [apply, insert_eq]
  by_cases length : record.attenuation.size = store.axis.size
  · rw [if_pos length]
    by_cases known : record.direction ∈ store.directions
    · rw [arranged.place_of_mem known, if_neg (by simp [known])]
      rfl
    · rw [arranged.place_of_not_mem known, if_pos ⟨length, known⟩]
      rfl
  · rw [if_neg length, if_neg fun both => length both.1]
    rfl

theorem apply_insertAll (store : Store) (records : List Record) :
    store.apply (.insertAll records) =
      if ∀ record ∈ records, record.attenuation.size = store.axis.size then store.addAll records
      else store := by
  rw [apply]
  split_ifs with lengths
  · rw [insertAll_of_lengths lengths]
    rfl
  · obtain ⟨before, record, behind, rfl, earlier, wrong⟩ := exists_first_wrong (by simpa using lengths)
    rw [insertAll_of_first earlier wrong]
    rfl

private theorem Arranged.apart_of_not_mem (arranged : store.Arranged) (arrangement : Arrangement)
    {direction : Direction} (fresh : direction ∉ store.directions) :
    let position := (store.locate arrangement direction).position
    position ≤ (store.entries arrangement).length ∧
      (∀ a ∈ (store.entries arrangement).take position,
        arrangement.key a.2.direction < arrangement.key direction) ∧
      ∀ b ∈ (store.entries arrangement).drop position,
        arrangement.key direction < arrangement.key b.2.direction := by
  obtain ⟨position, absent⟩ := arranged.locate_of_not_mem arrangement fresh
  have fits := arranged.locate_fits arrangement direction
  rw [absent, keys_eq_map_entries] at fits
  rw [absent]
  cases fits with
  | absent _ inside before behind =>
    rw [← List.map_take] at before
    rw [← List.map_drop] at behind
    rw [List.length_map] at inside
    refine ⟨inside, ?_, ?_⟩
    · intro a member
      exact before _ (List.mem_map_of_mem member)
    · intro b member
      exact behind _ (List.mem_map_of_mem member)

private theorem Arranged.fst_lt_size (arranged : store.Arranged) {arrangement : Arrangement}
    {entry : Nat × Record} (member : entry ∈ store.entries arrangement) :
    entry.1 < store.size := by
  have number := (arranged.numbers_perm arrangement).mem_iff.mp (List.mem_map_of_mem member)
  simpa using number

theorem Arranged.added (arranged : store.Arranged) {record : Record}
    (length : record.attenuation.size = store.axis.size)
    (fresh : record.direction ∉ store.directions) : (store.added record).Arranged where
  perm arrangement := by
    rw [Store.added, entries_addAt, arena_addAt, Array.toList_push, numbered_append]
    refine (List.perm_insertIdx _ _ (arranged.apart_of_not_mem arrangement fresh).1).trans ?_
    refine ((arranged.perm arrangement).cons _).trans ?_
    simpa [numbered, size] using (List.perm_append_singleton _ _).symm
  ascending arrangement := by
    obtain ⟨inside, before, behind⟩ := arranged.apart_of_not_mem arrangement fresh
    rw [Store.added, entries_addAt]
    refine pairwise_insertIdx (arranged.ascending arrangement) inside ?_ ?_
    · intro a member
      exact Prod.Lex.toLex_lt_toLex.mpr (.inl (before a member))
    · intro b member
      exact Prod.Lex.toLex_lt_toLex.mpr (.inl (behind b member))
  lengths other member := by
    rw [Store.added, arena_addAt, Array.mem_push] at member
    rcases member with member | rfl
    · exact arranged.lengths other member
    · exact length

private theorem Arranged.ties (arranged : store.Arranged) (records : List Record)
    (arrangement : Arrangement) :
    (store.entries arrangement ++ numbered store.size records).Pairwise fun a b =>
      (arrangement.compare b.2.direction a.2.direction).isLE → a.1 < b.1 := by
  have later : ∀ b ∈ numbered store.size records, store.size ≤ b.1 := by
    intro b member
    have number := List.mem_map_of_mem (f := Prod.fst) member
    rw [map_fst_numbered, List.mem_range'_1] at number
    exact number.1
  refine List.pairwise_append.mpr ⟨?_, ?_, ?_⟩
  · refine (arranged.ascending arrangement).imp ?_
    intro a b before tie
    rcases Prod.Lex.toLex_lt_toLex.mp before with less | ⟨_, less⟩
    · exact absurd ((arrangement.isLE_compare _ _).mp tie) less.not_ge
    · exact less
  · have numbers := List.pairwise_lt_range' (s := store.size) (n := records.length)
    rw [← map_fst_numbered, List.pairwise_map] at numbers
    refine numbers.imp ?_
    intro a b less _
    exact less
  · intro a ha b hb _
    exact (arranged.fst_lt_size ha).trans_le (later b hb)

theorem Arranged.addAll (arranged : store.Arranged) {records : List Record}
    (lengths : ∀ record ∈ records, record.attenuation.size = store.axis.size) :
    (store.addAll records).Arranged where
  perm arrangement := by
    rw [entries_addAll, arena_addAll, Array.toList_append, numbered_append]
    refine (List.mergeSort_perm _ _).trans ?_
    simpa [size] using (arranged.perm arrangement).append_right _
  ascending arrangement := by
    rw [entries_addAll]
    have nodup : (store.entries arrangement ++ numbered store.size records).Nodup := by
      have perm := (arranged.perm arrangement).append_right (numbered store.size records)
      have whole := numbered_append 0 store.arena.toList records
      rw [Nat.zero_add, Array.length_toList] at whole
      rw [size, ← whole] at perm
      exact perm.nodup_iff.mpr (nodup_numbered 0 _)
    refine (pairwise_mergeSort_of_ties ?_ ?_ nodup (arranged.ties records arrangement)).imp ?_
    · intro a b c
      simp only [Arrangement.isLE_compare]
      exact le_trans
    · intro a b
      simp only [Bool.or_eq_true, Arrangement.isLE_compare]
      exact le_total _ _
    · rintro a b ⟨le, tie⟩
      rw [Arrangement.isLE_compare] at le tie
      rcases le.lt_or_eq with less | same
      · exact Prod.Lex.toLex_lt_toLex.mpr (.inl less)
      · exact Prod.Lex.toLex_lt_toLex.mpr (.inr ⟨same, tie same.ge⟩)
  lengths record member := by
    rw [arena_addAll, Array.mem_append] at member
    rcases member with member | member
    · exact arranged.lengths record member
    · exact lengths record (by simpa using member)

theorem Arranged.setInterpolation (arranged : store.Arranged) (interpolation : Interpolation) :
    (store.setInterpolation interpolation).Arranged :=
  ⟨arranged.perm, arranged.ascending, arranged.lengths⟩

theorem Arranged.apply (arranged : store.Arranged) (operation : Operation) :
    (store.apply operation).Arranged := by
  cases operation with
  | insert record =>
    rw [arranged.apply_insert]
    split_ifs with new
    · exact arranged.added new.1 new.2
    · exact arranged
  | insertAll records =>
    rw [apply_insertAll]
    split_ifs with lengths
    · exact arranged.addAll lengths
    · exact arranged
  | setInterpolation interpolation => exact arranged.setInterpolation interpolation

theorem Arranged.run (arranged : store.Arranged) (operations : List Operation) :
    (store.run operations).Arranged := by
  -- Each call leaves another store, so the induction is over all arranged stores.
  induction operations generalizing store with
  | nil => exact arranged
  | cons operation operations ih => exact ih (arranged.apply operation)

theorem createWith_eq_ok {options : StoreOptions} {identifier : Int32} {bands : List Binary64}
    {created : Logged Store} (valid : createWith options identifier bands = .ok created) :
    ∃ axis, BandAxis.ofList bands = .ok axis ∧
      created.value = ⟨identifier, axis, options.interpolation, #[], #[], #[]⟩ := by
  cases bandAxis : BandAxis.ofList bands with
  | error e => simp [createWith, bandAxis, bind, Except.bind] at valid
  | ok axis =>
    simp only [createWith, bandAxis, bind, Except.bind, pure, Except.pure] at valid
    cases valid
    exact ⟨axis, rfl, rfl⟩

theorem arranged_of_createWith {options : StoreOptions} {identifier : Int32}
    {bands : List Binary64} {created : Logged Store}
    (valid : createWith options identifier bands = .ok created) : created.value.Arranged := by
  obtain ⟨axis, _, empty⟩ := createWith_eq_ok valid
  rw [empty]
  refine ⟨fun arrangement => ?_, fun arrangement => ?_, fun record member => ?_⟩
  · cases arrangement <;> exact List.Perm.refl []
  · cases arrangement <;> exact List.Pairwise.nil
  · simp at member

theorem Reachable.arranged (reachable : store.Reachable) : store.Arranged := by
  obtain ⟨options, identifier, bands, created, operations, valid, rfl⟩ := reachable
  exact (arranged_of_createWith valid).run operations

end Store

end Directivity
