import Directivity.Proofs.Store.Arranged

set_option autoImplicit false
set_option relaxedAutoImplicit false

namespace Directivity.Store

variable {store : Store}

def Operation.IsNewTo (store : Store) : Operation → Prop
  | .insertAll records =>
    (records.map Record.direction).Nodup ∧
      ∀ record ∈ records, record.direction ∉ store.directions
  | .insert _ | .setInterpolation _ => True

/-- No admission at once along a run repeats a direction. -/
def NeverRepeats (store : Store) : List Operation → Prop
  | [] => True
  | operation :: operations =>
    operation.IsNewTo store ∧ NeverRepeats (store.apply operation) operations

theorem directions_added (store : Store) (record : Record) :
    (store.added record).directions = store.directions ++ [record.direction] := by
  simp [added, directions]

theorem directions_addAll (store : Store) (records : List Record) :
    (store.addAll records).directions = store.directions ++ records.map Record.direction := by
  simp [directions]

theorem Arranged.nodup_directions_apply (arranged : store.Arranged)
    (distinct : store.directions.Nodup) {operation : Operation} (new : operation.IsNewTo store) :
    (store.apply operation).directions.Nodup := by
  cases operation with
  | insert record =>
    rw [arranged.apply_insert]
    split_ifs with fresh
    · rw [directions_added]
      exact List.nodup_append_comm.mp (List.nodup_cons.mpr ⟨fresh.2, distinct⟩)
    · exact distinct
  | insertAll records =>
    rw [apply_insertAll]
    split_ifs
    · rw [directions_addAll]
      refine List.nodup_append'.mpr ⟨distinct, new.1, ?_⟩
      intro direction known added
      obtain ⟨record, member, rfl⟩ := List.mem_map.mp added
      exact new.2 record member known
    · exact distinct
  | setInterpolation interpolation => exact distinct

theorem Arranged.nodup_directions_run (arranged : store.Arranged)
    (distinct : store.directions.Nodup) {operations : List Operation}
    (new : store.NeverRepeats operations) : (store.run operations).directions.Nodup := by
  induction operations generalizing store with
  | nil => exact distinct
  | cons operation operations ih =>
    exact ih (arranged.apply operation) (arranged.nodup_directions_apply distinct new.1) new.2

theorem Arranged.circle_ascending (arranged : store.Arranged) (distinct : store.directions.Nodup)
    (arrangement : Arrangement) :
    (store.circle arrangement).Pairwise fun a b => arrangement.key a < arrangement.key b := by
  have nodup : (store.circle arrangement).Nodup :=
    (arranged.circle_perm arrangement).nodup_iff.mpr distinct
  have ascending := arranged.keys_ascending arrangement
  rw [keys, List.pairwise_map] at ascending
  refine ascending.imp₂ ?_ nodup
  intro a b le ne
  exact lt_of_le_of_ne le (arrangement.key_injective.ne ne)

def Operation.offered : Operation → List Record
  | .insert record => [record]
  | .insertAll records => records
  | .setInterpolation _ => []

def Operation.chosen (current : Interpolation) : Operation → Interpolation
  | .setInterpolation interpolation => interpolation
  | .insert _ | .insertAll _ => current

theorem Arranged.frame_apply (arranged : store.Arranged) (operation : Operation) :
    (store.apply operation).identifier = store.identifier ∧
      (store.apply operation).axis = store.axis ∧
      (store.apply operation).interpolation = operation.chosen store.interpolation := by
  cases operation with
  | insert record =>
    rw [arranged.apply_insert]
    split_ifs <;> exact ⟨rfl, rfl, rfl⟩
  | insertAll records =>
    rw [apply_insertAll]
    split_ifs <;> exact ⟨rfl, rfl, rfl⟩
  | setInterpolation interpolation => exact ⟨rfl, rfl, rfl⟩

theorem Arranged.frame_run (arranged : store.Arranged) (operations : List Operation) :
    (store.run operations).identifier = store.identifier ∧
      (store.run operations).axis = store.axis ∧
      (store.run operations).interpolation =
        operations.foldl Operation.chosen store.interpolation := by
  induction operations generalizing store with
  | nil => exact ⟨rfl, rfl, rfl⟩
  | cons operation operations ih =>
    obtain ⟨identifier, axis, interpolation⟩ := arranged.frame_apply operation
    rw [List.foldl_cons, ← identifier, ← axis, ← interpolation]
    exact ih (arranged.apply operation)

theorem Arranged.axis_run (arranged : store.Arranged) (operations : List Operation) :
    (store.run operations).axis = store.axis :=
  (arranged.frame_run operations).2.1

theorem Arranged.interpolation_run (arranged : store.Arranged) (operations : List Operation) :
    (store.run operations).interpolation = operations.foldl Operation.chosen store.interpolation :=
  (arranged.frame_run operations).2.2

theorem Arranged.arena_apply (arranged : store.Arranged) {operation : Operation}
    (lengths : ∀ record ∈ operation.offered, record.attenuation.size = store.axis.size)
    (new : ∀ record ∈ operation.offered, record.direction ∉ store.directions) :
    (store.apply operation).arena.toList = store.arena.toList ++ operation.offered := by
  cases operation with
  | insert record =>
    have taken := And.intro (lengths record List.mem_cons_self) (new record List.mem_cons_self)
    rw [arranged.apply_insert, if_pos taken]
    exact Array.toList_push ..
  | insertAll records =>
    have taken : ∀ record ∈ records, record.attenuation.size = store.axis.size := lengths
    rw [apply_insertAll, if_pos taken]
    exact Array.toList_append ..
  | setInterpolation interpolation => exact (List.append_nil _).symm

theorem Arranged.arena_run (arranged : store.Arranged) {operations : List Operation}
    (lengths : ∀ record ∈ operations.flatMap Operation.offered,
      record.attenuation.size = store.axis.size)
    (new : ∀ record ∈ operations.flatMap Operation.offered, record.direction ∉ store.directions)
    (distinct : ((operations.flatMap Operation.offered).map Record.direction).Nodup) :
    (store.run operations).arena.toList =
      store.arena.toList ++ operations.flatMap Operation.offered := by
  induction operations generalizing store with
  | nil => exact (List.append_nil _).symm
  | cons operation operations ih =>
    rw [List.flatMap_cons, List.map_append] at distinct
    rw [List.flatMap_cons] at lengths new ⊢
    obtain ⟨_, distinct', apart⟩ := List.nodup_append'.mp distinct
    have taken : (store.apply operation).arena.toList =
        store.arena.toList ++ operation.offered := by
      refine arranged.arena_apply ?_ ?_
      · intro record member
        exact lengths record (List.mem_append_left _ member)
      · intro record member
        exact new record (List.mem_append_left _ member)
    rw [← List.append_assoc, ← taken]
    refine ih (arranged.apply operation) ?_ ?_ distinct'
    · intro record member
      rw [(arranged.frame_apply operation).2.1]
      exact lengths record (List.mem_append_right _ member)
    · intro record member
      rw [directions, taken, List.map_append, List.mem_append, not_or]
      exact ⟨new record (List.mem_append_right _ member),
        fun earlier => apart earlier (List.mem_map_of_mem member)⟩

theorem size_axis_of_createWith {options : StoreOptions} {identifier : Int32}
    {bands : List Binary64} {created : Logged Store}
    (valid : createWith options identifier bands = .ok created) :
    created.value.axis.size = bands.length := by
  obtain ⟨axis, bandAxis, empty⟩ := createWith_eq_ok valid
  rw [empty]
  exact BandAxis.size_of_ofList bandAxis

theorem directions_of_createWith {options : StoreOptions} {identifier : Int32}
    {bands : List Binary64} {created : Logged Store}
    (valid : createWith options identifier bands = .ok created) : created.value.directions = [] := by
  obtain ⟨axis, _, empty⟩ := createWith_eq_ok valid
  simp [empty, directions]

theorem arena_run_of_createWith {options : StoreOptions} {identifier : Int32}
    {bands : List Binary64} {created : Logged Store}
    (valid : createWith options identifier bands = .ok created) (operations : List Operation)
    (lengths : ∀ record ∈ operations.flatMap Operation.offered,
      record.attenuation.size = bands.length)
    (distinct : ((operations.flatMap Operation.offered).map Record.direction).Nodup) :
    (created.value.run operations).arena.toList = operations.flatMap Operation.offered := by
  have nothing := directions_of_createWith valid
  have filled := (arranged_of_createWith valid).arena_run
    (by rwa [size_axis_of_createWith valid]) (by simp [nothing]) distinct
  rwa [List.map_eq_nil_iff.mp nothing] at filled

/-- Whatever calls a new store gets, and whether they are refused or not: either index is the list
of the numbers of its records, in the order of directions and then of the numbers; every record has
one value per band; a direction that is there is never admitted alone; and where no admission at
once repeats a direction, either arrangement ascends strictly. -/
theorem run_arranges {options : StoreOptions} {identifier : Int32} {bands : List Binary64}
    {created : Logged Store} (valid : createWith options identifier bands = .ok created)
    (operations : List Operation) :
    let store := created.value.run operations
    (∀ arrangement,
      ((store.index arrangement).toList.map Fin.val).Perm (List.range store.arena.size) ∧
        (store.index arrangement).toList.Pairwise fun a b =>
          arrangement.compare store.arena[a].direction store.arena[b].direction = .lt ∨
            store.arena[a].direction = store.arena[b].direction ∧ a < b) ∧
      (∀ record ∈ store.arena, record.attenuation.size = store.axis.size) ∧
      (∀ record, record.direction ∈ store.directions → store.apply (.insert record) = store) ∧
      (created.value.NeverRepeats operations → ∀ arrangement,
        (store.records arrangement).Pairwise fun a b =>
          arrangement.compare a.direction b.direction = .lt) := by
  intro store
  have initial := arranged_of_createWith valid
  have arranged : store.Arranged := initial.run operations
  refine ⟨?_, arranged.lengths, ?_, ?_⟩
  · intro arrangement
    have numbers := arranged.numbers_perm arrangement
    rw [entries, entriesOf, List.map_map] at numbers
    refine ⟨numbers, ?_⟩
    have ascending := arranged.ascending arrangement
    rw [entries, entriesOf, List.pairwise_map] at ascending
    refine ascending.imp ?_
    intro a b before
    rw [Arrangement.compare_eq_lt, ← arrangement.key_injective.eq_iff]
    exact Prod.Lex.toLex_lt_toLex.mp before
  · intro record known
    rw [arranged.apply_insert, if_neg fun new => new.2 known]
  · intro new arrangement
    obtain ⟨axis, _, empty⟩ := createWith_eq_ok valid
    have distinct : created.value.directions.Nodup := by simp [empty, directions]
    have strict := arranged.circle_ascending
      (initial.nodup_directions_run distinct new) arrangement
    rw [circle, List.pairwise_map] at strict
    exact strict.imp fun less => (arrangement.compare_eq_lt _ _).mpr less

def hundredHertz : Binary64 := ⟨0x4059000000000000⟩

def blank (axis : BandAxis) (interpolation : Interpolation) : Store :=
  ⟨1, axis, interpolation, #[], #[], #[]⟩

theorem reachable_run_blank {bands : List Binary64} {axis : BandAxis}
    (valid : BandAxis.ofList bands = .ok axis) (interpolation : Interpolation)
    (operations : List Operation) : ((blank axis interpolation).run operations).Reachable := by
  refine ⟨{ interpolation }, 1, bands,
    ⟨blank axis interpolation, [.storeCreated 1 axis.size]⟩, operations, ?_, rfl⟩
  rw [createWith, valid]
  rfl

/-- A record of one value, towards the direction with the given patterns. -/
def single (elevation azimuth : UInt64) : Record :=
  ⟨⟨⟨elevation⟩, ⟨azimuth⟩⟩, #[0]⟩

def sampleRun : List Operation :=
  [.insertAll [single 1 0, single 0 1], .insert (single 0 1), .insert ⟨⟨⟨0⟩, ⟨0⟩⟩, #[]⟩]

theorem run_arranges_sampleRun :
    ∃ created, createWith {} 1 [hundredHertz] = .ok created ∧
      created.value.NeverRepeats sampleRun ∧
      ∀ arrangement, ((created.value.run sampleRun).records arrangement).Pairwise fun a b =>
        arrangement.compare a.direction b.direction = .lt := by
  obtain ⟨created, valid⟩ : ∃ created, createWith {} 1 [hundredHertz] = .ok created := ⟨_, rfl⟩
  obtain ⟨axis, _, empty⟩ := createWith_eq_ok valid
  have new : created.value.NeverRepeats sampleRun :=
    ⟨⟨by decide, by simp [empty, directions]⟩, trivial, trivial, trivial⟩
  exact ⟨created, valid, new, (run_arranges valid sampleRun).2.2.2 new⟩

theorem exists_reachable_arena (operations : List Operation)
    (lengths : ∀ record ∈ operations.flatMap Operation.offered, record.attenuation.size = 1)
    (distinct : ((operations.flatMap Operation.offered).map Record.direction).Nodup) :
    ∃ store : Store, store.Reachable ∧ store.axis.size = 1 ∧
      store.arena.toList = operations.flatMap Operation.offered := by
  obtain ⟨created, valid⟩ : ∃ created, createWith {} 1 [hundredHertz] = .ok created := ⟨_, rfl⟩
  refine ⟨_, ⟨_, _, _, created, operations, valid, rfl⟩, ?_,
    arena_run_of_createWith valid operations lengths distinct⟩
  rw [(arranged_of_createWith valid).axis_run]
  exact size_axis_of_createWith valid

theorem exists_reachable (operations : List Operation)
    (lengths : ∀ record ∈ operations.flatMap Operation.offered, record.attenuation.size = 1)
    (distinct : ((operations.flatMap Operation.offered).map Record.direction).Nodup) :
    ∃ store : Store, store.Reachable ∧
      store.directions = (operations.flatMap Operation.offered).map Record.direction := by
  obtain ⟨store, reachable, _, arena⟩ := exists_reachable_arena operations lengths distinct
  exact ⟨store, reachable, by rw [directions, arena]⟩

theorem exists_reachable_batch (records : List Record)
    (lengths : ∀ record ∈ records, record.attenuation.size = 1) :
    ∃ store : Store, store.Reachable ∧ store.axis.size = 1 ∧
      store.directions = records.map Record.direction := by
  obtain ⟨created, valid⟩ : ∃ created, createWith {} 1 [hundredHertz] = .ok created := ⟨_, rfl⟩
  have one : created.value.axis.size = 1 := size_axis_of_createWith valid
  have filled : created.value.apply (.insertAll records) = created.value.addAll records := by
    rw [apply_insertAll, if_pos (by rwa [one])]
  refine ⟨_, ⟨_, _, _, created, [.insertAll records], valid, rfl⟩, ?_, ?_⟩
  · rw [(arranged_of_createWith valid).axis_run, one]
  · rw [run, List.foldl_cons, List.foldl_nil, filled, directions_addAll,
      directions_of_createWith valid, List.nil_append]

end Directivity.Store
