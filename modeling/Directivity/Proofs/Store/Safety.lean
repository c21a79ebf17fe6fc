import Directivity.Proofs.Store.Bare
import Directivity.Proofs.Store.Sizes

set_option autoImplicit false
set_option relaxedAutoImplicit false

namespace Directivity

@[simp]
theorem Checked.there_some {α : Type} (x : α) : Checked.there (some x) = pure x := rfl

theorem Checked.oneLess_of_ne_zero {n : Nat} (nonzero : n ≠ 0) :
    Checked.oneLess n = pure (n - 1) := by
  cases n with
  | zero => exact absurd rfl nonzero
  | succ n => rfl

theorem Checked.insertAt_of_le {α : Type} {xs : List α} {position : Nat} (x : α)
    (inside : position ≤ xs.length) :
    Checked.insertAt xs position x = pure (xs.insertIdx position x) :=
  if_pos inside

theorem Checked.bind_liftM {α β : Type} {x : Logged α} {f : α → Checked β} {g : α → Logged β}
    (same : f x.value = liftM (g x.value)) : liftM x >>= f = liftM (x >>= g) := by
  have next : (f x.value).run = Except.ok <$> g x.value := by rw [same, ExceptT.run_liftM]
  refine ExceptT.ext ?_
  rw [ExceptT.run_bind, ExceptT.run_liftM, ExceptT.run_liftM, bind_map_left, map_bind]
  exact congrArg (fun y : Logged _ => Logged.mk y.value (x.events ++ y.events)) next

theorem Checked.value_bind_of_ok {α β : Type} {c : Checked α} {a : α} (f : α → Checked β)
    (ok : c.run.value = .ok a) : (c >>= f).run.value = (f a).run.value := by
  rw [ExceptT.run_bind, Logged.value_bind, ok]

theorem Checked.mapM_eq_liftM {α β : Type} {f : α → Checked β} {g : α → Logged β} {xs : List α}
    (same : ∀ x ∈ xs, f x = liftM (g x)) : xs.mapM f = liftM (xs.mapM g) := by
  induction xs with
  | nil => simp
  | cons x xs ih =>
    rw [List.forall_mem_cons] at same
    simp [List.mapM_cons, same.1, ih same.2]

theorem BandAxis.checkedColumn_eq (axis : BandAxis) (frequency : Binary64) :
    axis.checkedColumn frequency = liftM (axis.column frequency) := by
  unfold checkedColumn column
  cases axis.exactColumn? frequency with
  | some column => exact (monadLift_pure column).symm
  | none =>
    have nonempty := axis.nonempty
    obtain ⟨upper, place⟩ : ∃ upper, upper =
        min (cut axis.bands fun band => decide (band < frequency)) (axis.bands.size - 1) := ⟨_, rfl⟩
    have upper_lt : upper < axis.bands.size := by omega
    have lower_lt : upper - 1 < axis.bands.size := by omega
    have nearest : (if (axis.bands[upper - 1] - frequency).abs ≤ (axis.bands[upper] - frequency).abs
        then upper - 1 else upper) = (axis.nearestColumn frequency).val := by
      simp only [nearestColumn, ← place]
      split_ifs <;> rfl
    have band := Array.getElem?_eq_getElem (axis.nearestColumn frequency).isLt
    simp only [Checked.oneLess_of_ne_zero nonempty.ne', pure_bind, ← place,
      Array.getElem?_eq_getElem upper_lt, Array.getElem?_eq_getElem lower_lt, Checked.there_some,
      nearest, band]
    simp

namespace Store

variable {store : Store} {arrangement : Arrangement} {direction : Direction}

theorem index_bare (store : Store) (arrangement : Arrangement) :
    store.bare.index arrangement = (store.entries arrangement).map Prod.fst := by
  cases arrangement <;> simp [bare, BareStore.index, entries, entriesOf, index, Function.comp_def]

theorem getElem?_arena_of_mem_entries {entry : Nat × Record}
    (member : entry ∈ store.entries arrangement) : store.arena[entry.1]? = some entry.2 := by
  obtain ⟨number, _, rfl⟩ := List.mem_map.mp member
  simp

end Store

namespace BareStore

theorem entries_eq {bare : BareStore} {arrangement : Arrangement} {entries : List (Nat × Record)}
    (index : bare.index arrangement = entries.map Prod.fst)
    (known : ∀ entry ∈ entries, bare.arena[entry.1]? = some entry.2) :
    bare.entries arrangement = pure entries := by
  have each : ∀ entry ∈ entries, (do
      return (entry.1, ← Checked.there bare.arena[entry.1]?) : Checked (Nat × Record)) =
        liftM (pure entry : Logged (Nat × Record)) := by
    intro entry member
    rw [known entry member, Checked.there_some, pure_bind, liftM_pure]
  rw [BareStore.entries, index, List.mapM_map]
  have all := List.mapM_pure (m := Logged) (l := entries) (f := id)
  rw [List.map_id] at all
  refine (Checked.mapM_eq_liftM each).trans ((congrArg liftM all).trans ?_)
  exact monadLift_pure entries

end BareStore

namespace Store

variable {store : Store} {arrangement : Arrangement} {direction : Direction}

theorem entries_bare (store : Store) (arrangement : Arrangement) :
    store.bare.entries arrangement = pure (store.entries arrangement) :=
  BareStore.entries_eq (store.index_bare arrangement) fun _ => getElem?_arena_of_mem_entries

theorem locate_bare (store : Store) (arrangement : Arrangement) (direction : Direction) :
    store.bare.locate arrangement direction = pure (store.locate arrangement direction) := by
  have entries : (store.entries arrangement).toArray =
      (store.index arrangement).map fun number => (number.val, store.arena[number]) := by
    rw [Store.entries, entriesOf, ← Array.toList_map, Array.toArray_toList]
  rw [BareStore.locate, entries_bare, pure_bind, entries, locate_map]
  rfl

theorem recordAt_bare {position : Nat} {record : Record}
    (found : store.at? arrangement position = some record) :
    store.bare.recordAt arrangement position = pure record := by
  obtain ⟨number, stands, rfl⟩ := Option.map_eq_some_iff.mp found
  have number_bare : (store.bare.index arrangement)[position]? = some number.val := by
    rw [index_bare, Store.entries, entriesOf, List.map_map, List.getElem?_map,
      Array.getElem?_toList, stands]
    rfl
  have arena : store.bare.arena[number.val]? = some store.arena[number] := by
    simp [bare]
  rw [BareStore.recordAt, number_bare, Checked.there_some, pure_bind, arena, Checked.there_some]

theorem Arranged.exists_at? (arranged : store.Arranged) (arrangement : Arrangement) {position : Nat}
    (inside : position < store.size) : ∃ record, store.at? arrangement position = some record := by
  have length : (store.records arrangement).length = store.size :=
    (arranged.records_perm arrangement).length_eq
  exact ⟨_, (at?_eq store arrangement position).trans (List.getElem?_eq_getElem (length ▸ inside))⟩

theorem Arranged.length_keys (arranged : store.Arranged) (arrangement : Arrangement) :
    (store.keys arrangement).length = store.size := by
  rw [keys, List.length_map, arranged.length_circle]

theorem Arranged.position_le (arranged : store.Arranged) (arrangement : Arrangement)
    (direction : Direction) : (store.locate arrangement direction).position ≤ store.size := by
  rw [← arranged.length_keys arrangement]
  exact (arranged.locate_fits arrangement direction).position_le

theorem Arranged.find_bare (arranged : store.Arranged) (direction : Direction) :
    store.bare.find direction = pure (store.find? direction) := by
  have fits := arranged.locate_fits .byElevation direction
  rw [BareStore.find, locate_bare, pure_bind, find?]
  cases place : store.locate .byElevation direction with
  | found position =>
    rw [place] at fits
    cases fits with
    | found _ inside =>
      rw [arranged.length_keys] at inside
      obtain ⟨record, found⟩ := arranged.exists_at? .byElevation inside
      simp only [recordAt_bare found, pure_bind, found]
  | absent position => rfl

theorem below_bare {size : Nat} (position : Nat) (nonempty : size ≠ 0) :
    BareStore.below size position = pure (below size position) := by
  unfold BareStore.below below
  split_ifs with first
  · exact Checked.oneLess_of_ne_zero nonempty
  · exact Checked.oneLess_of_ne_zero first

theorem Arranged.neighbours_bare (arranged : store.Arranged) (nonempty : store.size ≠ 0)
    (arrangement : Arrangement) (direction : Direction) :
    ∃ pair, store.neighbours? arrangement direction = some pair ∧
      store.bare.neighbours arrangement direction = pure pair := by
  have position_le := arranged.position_le arrangement direction
  obtain ⟨upper, hu⟩ := arranged.exists_at? arrangement
    (above_lt (store.locate arrangement direction).position nonempty)
  obtain ⟨lower, hl⟩ := arranged.exists_at? arrangement (below_lt position_le nonempty)
  refine ⟨(upper.direction, lower.direction), by simp [neighbours?, hu, hl], ?_⟩
  have size : store.bare.arena.size = store.size := rfl
  simp only [BareStore.neighbours, locate_bare, pure_bind, size, recordAt_bare hu,
    below_bare _ nonempty, recordAt_bare hl]

theorem Arranged.cell_bare (arranged : store.Arranged) (direction : Direction) :
    store.bare.cell direction = pure (store.cell? direction) := by
  have size : store.bare.arena.size = store.size := rfl
  rw [BareStore.cell, size]
  by_cases empty : store.size = 0
  · rw [if_pos empty, arranged.cell?_of_size_eq_zero empty]
  · obtain ⟨⟨upper, lower⟩, neighbours, hn⟩ :=
      arranged.neighbours_bare empty .byElevation direction
    obtain ⟨⟨next, previous⟩, neighbours', hn'⟩ :=
      arranged.neighbours_bare empty .byAzimuth direction
    rw [if_neg empty, hn, hn', cell?, neighbours, neighbours']
    simp only [pure_bind, arranged.find_bare, Option.bind_eq_bind, Option.bind_some]
    cases store.find? ⟨upper.elevation, next.azimuth⟩ with
    | none => rfl
    | some c00 =>
    cases store.find? ⟨lower.elevation, next.azimuth⟩ with
    | none => rfl
    | some c10 =>
    cases store.find? ⟨lower.elevation, previous.azimuth⟩ with
    | none => rfl
    | some c11 =>
    cases store.find? ⟨upper.elevation, previous.azimuth⟩ <;> rfl

theorem Arranged.answerBy_bare (arranged : store.Arranged) (lib : Elementary)
    (interpolation : Interpolation) (direction : Direction) :
    store.bare.answerBy lib interpolation direction =
      liftM (store.answerBy lib interpolation direction) := by
  rw [BareStore.answerBy, answerBy, arranged.cell_bare, pure_bind]
  cases store.cell? direction with
  | some cell => exact (monadLift_pure _).symm
  | none => simp [bare]

theorem Arranged.answer_bare (arranged : store.Arranged) (lib : Elementary)
    (direction : Direction) :
    store.bare.answer lib direction = liftM (store.answer lib direction) :=
  arranged.answerBy_bare lib store.interpolation direction

def HasColumns (store : Store) : Prop :=
  ∀ frequency, (store.axis.column frequency).value < store.axis.size

theorem value_bare {record : Record} {column : Nat} (inside : column < record.attenuation.size) :
    BareStore.value record column = pure (record.value column) := by
  simp [BareStore.value, Record.value, inside]

theorem Arranged.value_answer_bare (arranged : store.Arranged) (lib : Elementary)
    (direction : Direction) {column : Nat} (inside : column < store.axis.size) :
    BareStore.value (store.answer lib direction).value.record column =
      liftM (pure ((store.answer lib direction).value.record.value column) : Logged Binary64) := by
  have sized : column < (store.answer lib direction).value.record.attenuation.size := by
    rwa [answer, arranged.size_answerBy]
  rw [value_bare sized, liftM_pure]

theorem Arranged.attenuation_bare (arranged : store.Arranged) (columns : store.HasColumns)
    (lib : Elementary) (frequency : Binary64) (direction : Direction) :
    store.bare.attenuation lib frequency direction =
      liftM (store.attenuation lib frequency direction) := by
  have axis : store.bare.axis = store.axis := rfl
  rw [BareStore.attenuation, axis, BandAxis.checkedColumn_eq]
  refine Checked.bind_liftM ?_
  rw [arranged.answer_bare]
  exact Checked.bind_liftM (arranged.value_answer_bare lib direction (columns frequency))

theorem Arranged.attenuations_bare (arranged : store.Arranged) (columns : store.HasColumns)
    (lib : Elementary) (frequencies : List Binary64) (direction : Direction) :
    store.bare.attenuations lib frequencies direction =
      liftM (store.attenuations lib frequencies direction) := by
  have axis : store.bare.axis = store.axis := rfl
  rw [BareStore.attenuations, arranged.answer_bare]
  refine Checked.bind_liftM (Checked.mapM_eq_liftM fun frequency _ => ?_)
  rw [axis, BandAxis.checkedColumn_eq]
  exact Checked.bind_liftM (arranged.value_answer_bare lib direction (columns frequency))

theorem Arranged.attenuationTable_bare (arranged : store.Arranged) (columns : store.HasColumns)
    (lib : Elementary) (frequencies : List Binary64) (directions : List Direction) :
    store.bare.attenuationTable lib frequencies directions =
      liftM (store.attenuationTable lib frequencies directions) := by
  have axis : store.bare.axis = store.axis := rfl
  rw [BareStore.attenuationTable, axis,
    Checked.mapM_eq_liftM fun frequency _ => store.axis.checkedColumn_eq frequency]
  refine Checked.bind_liftM (Checked.mapM_eq_liftM fun direction _ => ?_)
  rw [arranged.answer_bare]
  refine Checked.bind_liftM ?_
  have inside : ∀ column ∈ (frequencies.mapM store.axis.column).value,
      column < store.axis.size := by
    intro column member
    rw [Logged.value_mapM] at member
    obtain ⟨frequency, _, rfl⟩ := List.mem_map.mp member
    exact columns frequency
  rw [← List.mapM_pure]
  exact Checked.mapM_eq_liftM fun column member =>
    arranged.value_answer_bare lib direction (inside column member)

def bareOutcome : Except Error (Logged Store) → Checked (Except Error BareStore)
  | .error error => pure (.error error)
  | .ok added => (fun store => .ok store.bare) <$> (liftM added : Checked Store)

theorem bare_eq (store : Store) :
    store.bare = ⟨store.identifier, store.axis, store.interpolation, store.arena,
      (store.entries .byElevation).map Prod.fst, (store.entries .byAzimuth).map Prod.fst⟩ := by
  rw [← index_bare, ← index_bare]
  rfl

theorem Arranged.place_bare (arranged : store.Arranged) (record : Record) :
    store.bare.place record = bare <$> (liftM (store.place record) : Checked Store) := by
  have elevation_le := arranged.position_le .byElevation record.direction
  have azimuth_le := arranged.position_le .byAzimuth record.direction
  have length : ∀ arrangement, (store.bare.index arrangement).length = store.size := by
    intro arrangement
    rw [index_bare, (arranged.numbers_perm arrangement).length_eq, List.length_range]
  rw [BareStore.place, place, locate_bare, pure_bind]
  cases located : store.locate .byElevation record.direction with
  | found position => simp
  | absent position =>
    rw [located] at elevation_le
    have inserted : ∀ (arrangement : Arrangement) {position : Nat}, position ≤ store.size →
        Checked.insertAt (store.bare.index arrangement) position store.bare.arena.size =
          pure (((store.entries arrangement).insertIdx position (store.size, record)).map
            Prod.fst) := by
      intro arrangement position le
      rw [Checked.insertAt_of_le _ ((length arrangement).symm ▸ le), index_bare, List.map_insertIdx]
      rfl
    have byElevation : Checked.insertAt store.bare.byElevation position store.bare.arena.size =
        pure _ := inserted .byElevation elevation_le
    have byAzimuth : Checked.insertAt store.bare.byAzimuth
        (store.locate .byAzimuth record.direction).position store.bare.arena.size = pure _ :=
      inserted .byAzimuth azimuth_le
    simp only [locate_bare, pure_bind, byElevation, byAzimuth, monadLift_pure, map_pure]
    rw [bare_eq (store.addAt record _), entries_addAt, entries_addAt]
    rfl

theorem Arranged.insert_bare (arranged : store.Arranged) (record : Record) :
    store.bare.insert record = bareOutcome (store.insert record) := by
  have same : store.bare.checkLength record = store.checkLength record := rfl
  rw [BareStore.insert, same, insert]
  cases store.checkLength record with
  | error error => rfl
  | ok _ =>
    rw [arranged.place_bare]
    simp [bareOutcome]

theorem getElem?_append_of_mem_numbered {arena : Array Record} {records : List Record}
    {entry : Nat × Record} (new : entry ∈ numbered arena.size records) :
    (arena ++ records.toArray)[entry.1]? = some entry.2 := by
  obtain ⟨⟨record, number⟩, listed, rfl⟩ := List.mem_map.mp new
  obtain ⟨behind, before, here⟩ := List.mem_zipIdx listed
  have inside : number - arena.size < records.length := by omega
  rw [Prod.fst_swap, Prod.snd_swap, Array.getElem?_append_right behind, List.getElem?_toArray,
    List.getElem?_eq_getElem inside, here]

theorem sorted_grow_bare (store : Store) (records : List Record) (arrangement : Arrangement) :
    (store.bare.grow records).sorted arrangement =
      pure (((store.addAll records).entries arrangement).map Prod.fst) := by
  have index : (store.bare.grow records).index arrangement =
      store.bare.index arrangement ++ List.range' store.size records.length := by
    cases arrangement <;> rfl
  have arena : (store.bare.grow records).arena = store.arena ++ records.toArray := rfl
  have entries : (store.bare.grow records).entries arrangement =
      pure (store.entries arrangement ++ numbered store.size records) := by
    refine BareStore.entries_eq ?_ fun entry member => ?_
    · rw [index, index_bare, List.map_append, map_fst_numbered]
    · rw [arena]
      rcases List.mem_append.mp member with old | new
      · have known := getElem?_arena_of_mem_entries old
        obtain ⟨inside, _⟩ := Array.getElem?_eq_some_iff.mp known
        rw [Array.getElem?_append_left inside, known]
      · exact getElem?_append_of_mem_numbered new
  rw [BareStore.sorted, entries, pure_bind, entries_addAll]

theorem insertAll_bare (store : Store) (records : List Record) :
    store.bare.insertAll records = bareOutcome (store.insertAll records) := by
  have same : records.forM store.bare.checkLength = records.forM store.checkLength := rfl
  rw [BareStore.insertAll, same, insertAll]
  cases records.forM store.checkLength with
  | error error => rfl
  | ok _ =>
    have all : { store.bare.grow records with
        byElevation := ((store.addAll records).entries .byElevation).map Prod.fst
        byAzimuth := ((store.addAll records).entries .byAzimuth).map Prod.fst } =
          (store.addAll records).bare := (bare_eq (store.addAll records)).symm
    simp only [sorted_grow_bare, pure_bind, all]
    show _ = (fun store => Except.ok store.bare) <$> (liftM _ : Checked Store)
    rw [liftM_bind, map_bind]
    simp only [liftM_pure, map_pure]
    rfl

theorem Arranged.apply_bare (arranged : store.Arranged) (operation : Operation) :
    (store.bare.apply operation).run.value = .ok (store.apply operation).bare := by
  have settled : ∀ outcome : Except Error (Logged Store),
      (do return (← bareOutcome outcome).toOption.getD store.bare : Checked BareStore).run.value =
        .ok (store.settle outcome).bare := by
    intro outcome
    cases outcome <;> rfl
  cases operation with
  | insert record =>
    rw [BareStore.apply, arranged.insert_bare]
    exact settled _
  | insertAll records =>
    rw [BareStore.apply, insertAll_bare]
    exact settled _
  | setInterpolation interpolation => rfl

theorem Arranged.run_bare (arranged : store.Arranged) (operations : List Operation) :
    (store.bare.run operations).run.value = .ok (store.run operations).bare := by
  induction operations generalizing store with
  | nil => rfl
  | cons operation operations ih =>
    rw [BareStore.run, List.foldlM_cons, Checked.value_bind_of_ok _ (arranged.apply_bare operation)]
    exact ih (arranged.apply operation)

/-- Whatever calls a new store gets: none of them ends with a fault, nor does any call on the store
that they lead to, and on bare stores they do just what they do on stores. Every answer has one
value per band, every column is the position of a band, and there is one attenuation for each
frequency, and one row for each direction. -/
theorem calls_stay_in_range {options : StoreOptions} {identifier : Int32} {bands : List Binary64}
    {created : Logged Store} (valid : createWith options identifier bands = .ok created)
    (operations : List Operation) :
    let store := created.value.run operations
    (created.value.bare.run operations).run.value = .ok store.bare ∧
      (∀ record, store.bare.insert record = bareOutcome (store.insert record)) ∧
      (∀ records, store.bare.insertAll records = bareOutcome (store.insertAll records)) ∧
      (∀ frequency,
        store.axis.checkedColumn frequency = liftM (store.axis.column frequency) ∧
          (store.axis.column frequency).value < store.axis.size) ∧
      ∀ lib : Elementary,
        (∀ interpolation direction,
          store.bare.answerBy lib interpolation direction =
              liftM (store.answerBy lib interpolation direction) ∧
            (store.answerBy lib interpolation direction).value.record.attenuation.size =
              store.axis.size) ∧
        (∀ direction, store.bare.answer lib direction = liftM (store.answer lib direction)) ∧
        (∀ frequency direction,
          store.bare.attenuation lib frequency direction =
            liftM (store.attenuation lib frequency direction)) ∧
        (∀ frequencies direction,
          store.bare.attenuations lib frequencies direction =
              liftM (store.attenuations lib frequencies direction) ∧
            (store.attenuations lib frequencies direction).value.length = frequencies.length) ∧
        ∀ frequencies directions,
          store.bare.attenuationTable lib frequencies directions =
              liftM (store.attenuationTable lib frequencies directions) ∧
            (store.attenuationTable lib frequencies directions).value.length = directions.length ∧
            ∀ row ∈ (store.attenuationTable lib frequencies directions).value,
              row.length = frequencies.length := by
  intro store
  have initial := arranged_of_createWith valid
  have arranged : store.Arranged := initial.run operations
  have columns : store.HasColumns := by
    obtain ⟨axis, bandAxis, empty⟩ := createWith_eq_ok valid
    have same : store.axis = axis := by rw [initial.axis_run, empty]
    intro frequency
    rw [same]
    exact BandAxis.column_lt bandAxis frequency
  refine ⟨initial.run_bare operations, arranged.insert_bare, store.insertAll_bare,
    fun frequency => ⟨store.axis.checkedColumn_eq frequency, columns frequency⟩,
    fun lib => ⟨?_, arranged.answer_bare lib, arranged.attenuation_bare columns lib, ?_, ?_⟩⟩
  · exact fun interpolation direction => ⟨arranged.answerBy_bare lib interpolation direction,
      arranged.size_answerBy lib interpolation direction⟩
  · refine fun frequencies direction =>
      ⟨arranged.attenuations_bare columns lib frequencies direction, ?_⟩
    rw [Store.attenuations, Logged.value_bind, Logged.value_mapM, List.length_map]
  · refine fun frequencies directions =>
      ⟨arranged.attenuationTable_bare columns lib frequencies directions, ?_, ?_⟩
    · rw [Store.attenuationTable, Logged.value_bind, Logged.value_mapM, List.length_map]
    · intro row member
      rw [Store.attenuationTable, Logged.value_bind, Logged.value_mapM] at member
      obtain ⟨direction, _, rfl⟩ := List.mem_map.mp member
      simp [BandAxis.columnsFor, Logged.value_mapM]

def oddRun : List Operation :=
  [.insertAll [⟨⟨.nan, .infinity⟩, #[0]⟩, ⟨⟨.nan, .infinity⟩, #[0]⟩]]

theorem calls_stay_in_range_oddRun :
    ∃ created, createWith {} 1 [hundredHertz] = .ok created ∧
      (created.value.bare.run oddRun).run.value = .ok (created.value.run oddRun).bare ∧
      ∀ lib, (created.value.run oddRun).bare.attenuation lib .nan ⟨.infinity, .nan⟩ =
        liftM ((created.value.run oddRun).attenuation lib .nan ⟨.infinity, .nan⟩) := by
  obtain ⟨created, valid⟩ : ∃ created, createWith {} 1 [hundredHertz] = .ok created := ⟨_, rfl⟩
  obtain ⟨run, _, _, _, calls⟩ := calls_stay_in_range valid oddRun
  exact ⟨created, valid, run, fun lib => (calls lib).2.2.1 .nan ⟨.infinity, .nan⟩⟩

end Store

end Directivity
