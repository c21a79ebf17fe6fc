import Directivity.Proofs.Store.Distinct

/-!
Batches of records: admitted at once, one by one, or in parts.

An index lists the numbers of the arena by key and then by number, and there is only one such list.
So the arena decides a store, and two ways to fill the arena with the same records lead to the same
store, numbers included, although the one searches the place of every record and the other sorts
them all.
-/

set_option autoImplicit false
set_option relaxedAutoImplicit false

namespace Directivity.Store

variable {a b store : Store}

private theorem entriesOf_injective {α : Type} (arena : Array α) :
    Function.Injective (entriesOf arena) := by
  intro xs ys same
  refine Array.toList_inj.mp (List.map_injective_iff.mpr ?_ same)
  intro i j pair
  exact Fin.ext (congrArg Prod.fst pair)

theorem Arranged.entries_eq_of_arena (ha : a.Arranged) (hb : b.Arranged) (arena : a.arena = b.arena)
    (arrangement : Arrangement) : a.entries arrangement = b.entries arrangement := by
  have perm : (a.entries arrangement).Perm (b.entries arrangement) := by
    refine (ha.perm arrangement).trans ?_
    rw [arena]
    exact (hb.perm arrangement).symm
  exact perm.eq_of_pairwise (fun r s _ _ less more => absurd less more.not_gt)
    (ha.ascending arrangement) (hb.ascending arrangement)

/-- The indices of an arranged store leave no choice. -/
theorem Arranged.eq_of_arena (ha : a.Arranged) (hb : b.Arranged)
    (identifier : a.identifier = b.identifier) (axis : a.axis = b.axis)
    (interpolation : a.interpolation = b.interpolation) (arena : a.arena = b.arena) : a = b := by
  have entries := ha.entries_eq_of_arena hb arena
  obtain ⟨_, _, _, _, byElevation, byAzimuth⟩ := a
  obtain ⟨_, _, _, _, byElevation', byAzimuth'⟩ := b
  dsimp only at identifier axis interpolation arena
  subst identifier axis interpolation arena
  obtain rfl : byElevation = byElevation' := entriesOf_injective _ (entries .byElevation)
  obtain rfl : byAzimuth = byAzimuth' := entriesOf_injective _ (entries .byAzimuth)
  rfl

theorem insert_eq_ok {record : Record} (length : record.attenuation.size = store.axis.size) :
    (store.insert record).map Logged.value = .ok (store.apply (.insert record)) := by
  rw [apply, insert_eq, if_pos length]
  rfl

theorem insertAll_eq_ok {records : List Record}
    (lengths : ∀ record ∈ records, record.attenuation.size = store.axis.size) :
    (store.insertAll records).map Logged.value = .ok (store.addAll records) := by
  rw [insertAll_of_lengths lengths]
  rfl

def insertEach (store : Store) (records : List Record) : Except Error Store :=
  records.foldlM (fun current record => (current.insert record).map Logged.value) store

theorem Arranged.insertEach_eq_ok (arranged : store.Arranged) {records : List Record}
    (lengths : ∀ record ∈ records, record.attenuation.size = store.axis.size) :
    store.insertEach records = .ok (store.run (records.map .insert)) := by
  induction records generalizing store with
  | nil => rfl
  | cons record records ih =>
    obtain ⟨length, lengths⟩ := List.forall_mem_cons.mp lengths
    have rest : (store.apply (.insert record)).insertEach records =
        .ok ((store.apply (.insert record)).run (records.map .insert)) := by
      refine ih (arranged.apply _) ?_
      rwa [(arranged.frame_apply _).2.1]
    rw [insertEach, List.foldlM_cons, insert_eq_ok length]
    exact rest

theorem offered_inserts (records : List Record) :
    (records.map Operation.insert).flatMap Operation.offered = records := by
  simp [List.flatMap_map, Operation.offered]

theorem Arranged.run_inserts (arranged : store.Arranged) {records : List Record}
    (lengths : ∀ record ∈ records, record.attenuation.size = store.axis.size)
    (distinct : (records.map Record.direction).Nodup)
    (new : ∀ record ∈ records, record.direction ∉ store.directions) :
    store.run (records.map .insert) = store.addAll records := by
  obtain ⟨identifier, axis, interpolation⟩ := arranged.frame_run (records.map .insert)
  have unchosen : (records.map Operation.insert).foldl Operation.chosen store.interpolation =
      store.interpolation := by
    rw [List.foldl_map]
    exact List.foldl_fixed records
  have filled : (store.run (records.map .insert)).arena.toList = store.arena.toList ++ records := by
    have offered := offered_inserts records
    rw [← offered] at lengths new distinct
    exact (arranged.arena_run lengths new distinct).trans (by rw [offered])
  refine (arranged.run _).eq_of_arena (arranged.addAll lengths) identifier axis
    (interpolation.trans unchosen) (Array.toList_inj.mp ?_)
  rw [filled, arena_addAll, Array.toList_append]

theorem Arranged.addAll_append (arranged : store.Arranged) {first second : List Record}
    (lengths : ∀ record ∈ first ++ second, record.attenuation.size = store.axis.size) :
    store.addAll (first ++ second) = (store.addAll first).addAll second := by
  obtain ⟨before, behind⟩ := List.forall_mem_append.mp lengths
  refine (arranged.addAll lengths).eq_of_arena ((arranged.addAll before).addAll behind) rfl rfl rfl ?_
  simp [Array.append_assoc]

/-- Where records have right lengths, no two of them one direction and none a direction of the
store, it makes no difference whether they are admitted at once or one by one; and any records of
right lengths may as well be admitted in two parts. -/
theorem insertAll_eq_insertEach (reachable : store.Reachable) :
    (∀ records : List Record, (∀ record ∈ records, record.attenuation.size = store.axis.size) →
      (records.map Record.direction).Nodup →
      (∀ record ∈ records, record.direction ∉ store.directions) →
      ∃ next, (store.insertAll records).map Logged.value = .ok next ∧
        store.insertEach records = .ok next ∧
        next.arena = store.arena ++ records.toArray) ∧
      ∀ first second : List Record,
        (∀ record ∈ first ++ second, record.attenuation.size = store.axis.size) →
        ∃ middle next, (store.insertAll first).map Logged.value = .ok middle ∧
          (middle.insertAll second).map Logged.value = .ok next ∧
          (store.insertAll (first ++ second)).map Logged.value = .ok next ∧
          next.arena = store.arena ++ (first ++ second).toArray := by
  have arranged := reachable.arranged
  constructor
  · intro records lengths distinct new
    refine ⟨store.addAll records, insertAll_eq_ok lengths, ?_, arena_addAll store records⟩
    rw [arranged.insertEach_eq_ok lengths, arranged.run_inserts lengths distinct new]
  · intro first second lengths
    obtain ⟨before, behind⟩ := List.forall_mem_append.mp lengths
    refine ⟨store.addAll first, (store.addAll first).addAll second, insertAll_eq_ok before,
      insertAll_eq_ok behind, ?_, ?_⟩
    · rw [insertAll_eq_ok lengths, arranged.addAll_append lengths]
    · rw [← arranged.addAll_append lengths, arena_addAll]

def repeatedRun : List Operation :=
  [.insertAll [single 1 0, single 1 0]]

theorem insertAll_eq_insertEach_repeatedRun :
    ∃ store : Store, store.Reachable ∧ ¬ store.directions.Nodup ∧
      (∃ next, (store.insertAll [single 1 1, single 0 0]).map Logged.value = .ok next ∧
        store.insertEach [single 1 1, single 0 0] = .ok next) ∧
      ∃ middle next, (store.insertAll [single 0 0]).map Logged.value = .ok middle ∧
        (middle.insertAll [single 1 0, single 0 0]).map Logged.value = .ok next ∧
        (store.insertAll [single 0 0, single 1 0, single 0 0]).map Logged.value = .ok next := by
  obtain ⟨created, valid⟩ : ∃ created, createWith {} 1 [hundredHertz] = .ok created := ⟨_, rfl⟩
  obtain ⟨axis, bandAxis, empty⟩ := createWith_eq_ok valid
  have one : axis.size = 1 := BandAxis.size_of_ofList bandAxis
  have reachable : (created.value.run repeatedRun).Reachable :=
    ⟨_, _, _, created, repeatedRun, valid, rfl⟩
  have bands : (created.value.run repeatedRun).axis.size = 1 := by
    rw [(arranged_of_createWith valid).axis_run, empty]
    exact one
  have directions : (created.value.run repeatedRun).directions = [⟨⟨1⟩, ⟨0⟩⟩, ⟨⟨1⟩, ⟨0⟩⟩] := by
    have lengths : ∀ record ∈ [single 1 0, single 1 0],
        record.attenuation.size = created.value.axis.size := by
      simp [empty, one, single]
    rw [run, repeatedRun, List.foldl_cons, List.foldl_nil, apply_insertAll, if_pos lengths,
      directions_addAll, empty]
    rfl
  obtain ⟨each, parts⟩ := insertAll_eq_insertEach reachable
  refine ⟨_, reachable, by rw [directions]; decide, ?_, ?_⟩
  · obtain ⟨next, all, alone, _⟩ := each [single 1 1, single 0 0] (by simp [bands, single])
      (by decide) (by rw [directions]; decide)
    exact ⟨next, all, alone⟩
  · obtain ⟨middle, next, first, second, all, _⟩ :=
      parts [single 0 0] [single 1 0, single 0 0] (by simp [bands, single])
    exact ⟨middle, next, first, second, all⟩

end Directivity.Store
