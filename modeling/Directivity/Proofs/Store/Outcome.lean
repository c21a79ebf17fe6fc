import Directivity.Proofs.Store.Distinct
import Directivity.Proofs.Store.InPlace

set_option autoImplicit false
set_option relaxedAutoImplicit false

namespace Directivity.Store

variable {store next : Store} {records : List Record}

/-- A store has the records of another one with the same numbers and some more with the next
numbers. Both arrangements list the new ones, and the old ones in their order; nothing else is
different. -/
structure Gains (store next : Store) (records : List Record) : Prop where
  identifier : next.identifier = store.identifier
  axis : next.axis = store.axis
  interpolation : next.interpolation = store.interpolation
  arena : next.arena = store.arena ++ records.toArray
  listed : ∀ arrangement, (next.entries arrangement).Perm
    (store.entries arrangement ++ numbered store.size records)
  ordered : ∀ arrangement, (store.entries arrangement).Sublist (next.entries arrangement)

theorem Arranged.listed_of_arena (arranged : store.Arranged) (arranged' : next.Arranged)
    (arena : next.arena = store.arena ++ records.toArray) (arrangement : Arrangement) :
    (next.entries arrangement).Perm (store.entries arrangement ++ numbered store.size records) := by
  have all := arranged'.perm arrangement
  rw [arena, Array.toList_append, numbered_append, Nat.zero_add, Array.length_toList] at all
  exact all.trans ((arranged.perm arrangement).symm.append_right _)

theorem Arranged.gains (arranged : store.Arranged) (arranged' : next.Arranged)
    (identifier : next.identifier = store.identifier) (axis : next.axis = store.axis)
    (interpolation : next.interpolation = store.interpolation)
    (arena : next.arena = store.arena ++ records.toArray) : store.Gains next records := by
  refine ⟨identifier, axis, interpolation, arena, arranged.listed_of_arena arranged' arena, ?_⟩
  intro arrangement
  have listed := arranged.listed_of_arena arranged' arena arrangement
  have antisymm : Std.Antisymm fun a b : Nat × Record =>
      arrangement.entryKey a < arrangement.entryKey b := ⟨fun _ _ less more => (less.not_gt more).elim⟩
  have among := (List.sublist_append_left (store.entries arrangement) _).subperm.trans
    listed.symm.subperm
  exact List.sublist_of_subperm_of_pairwise among (arranged.ascending arrangement)
    (arranged'.ascending arrangement)

/-- An admission of some records is refused just where one of them has a wrong length, and the
refusal names the first of those. It leaves the store as it was and reports nothing. -/
structure RefusesWhole (store : Store) (records : List Record)
    (outcome : Except Error Unit × Logged Store) : Prop where
  refused_iff : (∃ error, outcome.1 = .error error) ↔
    ∃ record ∈ records, record.attenuation.size ≠ store.axis.size
  names_first : ∀ error, outcome.1 = .error error → ∃ before record behind,
    records = before ++ record :: behind ∧
      (∀ earlier ∈ before, earlier.attenuation.size = store.axis.size) ∧
      record.attenuation.size ≠ store.axis.size ∧
      error = .attenuationLength store.axis.size record.attenuation.size
  unchanged : ∀ error, outcome.1 = .error error → outcome.2 = ⟨store, []⟩

theorem refusesWhole_of_lengths
    (lengths : ∀ record ∈ records, record.attenuation.size = store.axis.size) (next : Logged Store) :
    store.RefusesWhole records (.ok (), next) where
  refused_iff := by simpa using lengths
  names_first := by simp
  unchanged := by simp

theorem refusesWhole_of_first {before behind : List Record} {record : Record}
    (earlier : ∀ other ∈ before, other.attenuation.size = store.axis.size)
    (wrong : record.attenuation.size ≠ store.axis.size) :
    store.RefusesWhole (before ++ record :: behind)
      (.error (.attenuationLength store.axis.size record.attenuation.size), ⟨store, []⟩) where
  refused_iff := ⟨fun _ => ⟨record, by simp, wrong⟩, fun _ => ⟨_, rfl⟩⟩
  names_first := by
    rintro _ ⟨⟩
    exact ⟨before, record, behind, rfl, earlier, wrong, rfl⟩
  unchanged _ _ := rfl

theorem refusesWhole_insertAll (store : Store) (records : List Record) :
    store.RefusesWhole records (store.left (store.insertAll records)) := by
  by_cases lengths : ∀ record ∈ records, record.attenuation.size = store.axis.size
  · rw [insertAll_of_lengths lengths]
    exact refusesWhole_of_lengths lengths _
  · obtain ⟨before, record, behind, rfl, earlier, wrong⟩ := exists_first_wrong (by simpa using lengths)
    rw [insertAll_of_first earlier wrong]
    exact refusesWhole_of_first earlier wrong

theorem refusesWhole_insert (store : Store) (record : Record) :
    store.RefusesWhole [record] (store.left (store.insert record)) := by
  rw [insert_eq]
  split_ifs with length
  · exact refusesWhole_of_lengths (by simpa using length) _
  · have earlier : ∀ other ∈ ([] : List Record), other.attenuation.size = store.axis.size := by simp
    exact refusesWhole_of_first earlier length

theorem Arranged.gains_addAll (arranged : store.Arranged)
    (lengths : ∀ record ∈ records, record.attenuation.size = store.axis.size) :
    store.Gains (store.addAll records) records :=
  arranged.gains (arranged.addAll lengths) rfl rfl rfl (arena_addAll store records)

theorem Arranged.gains_added (arranged : store.Arranged) {record : Record}
    (length : record.attenuation.size = store.axis.size)
    (fresh : record.direction ∉ store.directions) : store.Gains (store.added record) [record] := by
  have arena : (store.added record).arena = store.arena ++ [record].toArray := by
    rw [Store.added, arena_addAt, Array.push_eq_append]
  exact arranged.gains (arranged.added length fresh) rfl rfl rfl arena

/-- In place, an admission to a store that calls can lead to is refused as a whole, for the first
record of a wrong length, or not at all. Several records are then all added, with one report of how
many there were and are. One record is added without a report if its direction is new; if not,
nothing is different and one report says so. -/
theorem admissions_all_or_none (reachable : store.Reachable) :
    (∀ records : List Record,
      let outcome := InPlace.after ⟨store, []⟩ (InPlace.insertAll records)
      outcome = store.left (store.insertAll records) ∧
        store.RefusesWhole records outcome ∧
        ((∀ record ∈ records, record.attenuation.size = store.axis.size) →
          outcome.1 = .ok () ∧
            store.Gains outcome.2.value records ∧
            outcome.2.events =
              [.recordsAdded store.identifier records.length outcome.2.value.size] ∧
            outcome.2.events.map Event.severity = [.debug])) ∧
      ∀ record : Record,
        let outcome := InPlace.after ⟨store, []⟩ (InPlace.insert record)
        outcome = store.left (store.insert record) ∧
          store.RefusesWhole [record] outcome ∧
          (record.attenuation.size = store.axis.size →
            outcome.1 = .ok () ∧
              (record.direction ∈ store.directions →
                outcome.2 = ⟨store, [.alreadyStored record.direction]⟩ ∧
                  outcome.2.events.map Event.severity = [.trace]) ∧
              (record.direction ∉ store.directions →
                store.Gains outcome.2.value [record] ∧ outcome.2.events = [])) := by
  have arranged := reachable.arranged
  constructor
  · intro records outcome
    have eq : outcome = store.left (store.insertAll records) := after_insertAll store records
    refine ⟨eq, eq ▸ refusesWhole_insertAll store records, ?_⟩
    intro lengths
    rw [eq, insertAll_of_lengths lengths]
    exact ⟨rfl, arranged.gains_addAll lengths, rfl, rfl⟩
  · intro record outcome
    have eq : outcome = store.left (store.insert record) := after_insert store record
    refine ⟨eq, eq ▸ refusesWhole_insert store record, ?_⟩
    intro length
    rw [eq, insert_eq, if_pos length]
    refine ⟨rfl, ?_, ?_⟩
    · intro known
      rw [arranged.place_of_mem known]
      exact ⟨rfl, rfl⟩
    · intro fresh
      rw [arranged.place_of_not_mem fresh]
      exact ⟨arranged.gains_added length fresh, rfl⟩

theorem admissions_all_or_none_repeated :
    ∃ store : Store, store.Reachable ∧ ¬ store.directions.Nodup ∧
      InPlace.after ⟨store, []⟩ (InPlace.insertAll [single 0 0, ⟨⟨⟨0⟩, ⟨1⟩⟩, #[]⟩, single 1 1]) =
        (.error (.attenuationLength 1 0), ⟨store, []⟩) ∧
      InPlace.after ⟨store, []⟩ (InPlace.insert (single 1 0)) =
        (.ok (), ⟨store, [.alreadyStored ⟨⟨1⟩, ⟨0⟩⟩]⟩) ∧
      ∃ next, InPlace.after ⟨store, []⟩ (InPlace.insert (single 0 0)) = (.ok (), ⟨next, []⟩) ∧
        store.Gains next [single 0 0] := by
  obtain ⟨store, reachable, bands, directions⟩ :=
    exists_reachable_batch [single 1 0, single 1 0] (by simp [single])
  obtain ⟨batch, alone⟩ := admissions_all_or_none reachable
  refine ⟨store, reachable, by rw [directions]; decide, ?_, ?_, ?_⟩
  · obtain ⟨eq, _, _⟩ := batch [single 0 0, ⟨⟨⟨0⟩, ⟨1⟩⟩, #[]⟩, single 1 1]
    have earlier : ∀ other ∈ [single 0 0], other.attenuation.size = store.axis.size := by
      simp [bands, single]
    have wrong : (#[] : Array Binary64).size ≠ store.axis.size := by simp [bands]
    have refused : store.insertAll ([single 0 0] ++ ⟨⟨⟨0⟩, ⟨1⟩⟩, #[]⟩ :: [single 1 1]) = _ :=
      insertAll_of_first earlier wrong
    rw [bands] at refused
    exact eq.trans (congrArg store.left refused)
  · obtain ⟨_, _, admitted⟩ := alone (single 1 0)
    obtain ⟨ok, known, _⟩ := admitted (by rw [bands]; rfl)
    exact Prod.ext ok (known (by rw [directions]; decide)).1
  · obtain ⟨_, _, admitted⟩ := alone (single 0 0)
    obtain ⟨ok, _, fresh⟩ := admitted (by rw [bands]; rfl)
    obtain ⟨gains, silent⟩ := fresh (by rw [directions]; decide)
    exact ⟨_, Prod.ext ok (congrArg (Logged.mk _) silent), gains⟩

end Directivity.Store
