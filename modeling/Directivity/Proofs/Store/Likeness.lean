import Directivity.Proofs.Store.Neighbours

set_option autoImplicit false
set_option relaxedAutoImplicit false

namespace Directivity.Store

variable {a b : Store}

structure Alike (a b : Store) : Prop where
  axis : a.axis = b.axis
  interpolation : a.interpolation = b.interpolation
  size : a.size = b.size
  records : ∀ arrangement, a.records arrangement = b.records arrangement

namespace Alike

theorem at? (alike : a.Alike b) (arrangement : Arrangement) (position : Nat) :
    a.at? arrangement position = b.at? arrangement position := by
  rw [at?_eq, at?_eq, alike.records]

theorem locate (alike : a.Alike b) (arrangement : Arrangement) (direction : Direction) :
    a.locate arrangement direction = b.locate arrangement direction := by
  have keys : a.keys arrangement = b.keys arrangement := by
    rw [keys, keys, circle, circle, alike.records]
  rw [locate_eq_locate_keys, locate_eq_locate_keys, keys]

theorem find? (alike : a.Alike b) (direction : Direction) : a.find? direction = b.find? direction := by
  simp only [Store.find?, alike.locate, alike.at?]

theorem neighbours? (alike : a.Alike b) (arrangement : Arrangement) (direction : Direction) :
    a.neighbours? arrangement direction = b.neighbours? arrangement direction := by
  simp only [Store.neighbours?, alike.locate, alike.at?, alike.size]

theorem cell? (alike : a.Alike b) (direction : Direction) : a.cell? direction = b.cell? direction := by
  simp only [Store.cell?, alike.neighbours?, alike.find?]

theorem answerBy (alike : a.Alike b) (lib : Elementary) : a.answerBy lib = b.answerBy lib := by
  funext interpolation direction
  rw [Store.answerBy, Store.answerBy, alike.cell?, alike.axis]

theorem answer (alike : a.Alike b) (lib : Elementary) : a.answer lib = b.answer lib := by
  funext direction
  rw [Store.answer, Store.answer, alike.answerBy, alike.interpolation]

theorem attenuation (alike : a.Alike b) (lib : Elementary) :
    a.attenuation lib = b.attenuation lib := by
  funext frequency direction
  rw [Store.attenuation, Store.attenuation, alike.answer, alike.axis]

theorem attenuations (alike : a.Alike b) (lib : Elementary) :
    a.attenuations lib = b.attenuations lib := by
  funext frequencies direction
  rw [Store.attenuations, Store.attenuations, alike.answer, alike.axis]

theorem attenuationTable (alike : a.Alike b) (lib : Elementary) :
    a.attenuationTable lib = b.attenuationTable lib := by
  funext frequencies directions
  rw [Store.attenuationTable, Store.attenuationTable, alike.answer, alike.axis]

end Alike

/-- Without repeated directions, the records alone decide their list in either arrangement. -/
theorem Arranged.records_eq_of_perm (ha : a.Arranged) (hb : b.Arranged)
    (distinct : a.directions.Nodup) (perm : a.arena.toList.Perm b.arena.toList)
    (arrangement : Arrangement) : a.records arrangement = b.records arrangement := by
  have same : (a.records arrangement).Perm (b.records arrangement) :=
    ((ha.records_perm arrangement).trans perm).trans (hb.records_perm arrangement).symm
  have distinct' : b.directions.Nodup := (perm.map Record.direction).nodup_iff.mp distinct
  have left := ha.circle_ascending distinct arrangement
  have right := hb.circle_ascending distinct' arrangement
  rw [circle, List.pairwise_map] at left right
  exact same.eq_of_pairwise (fun r s _ _ less more => absurd less more.not_gt) left right

/-- Two new stores of the same bands, whose calls offer the same records of right lengths, no two of
one direction, in any order and in any groups, and choose the same interpolation in the end, list
the same records and give the same answers with the same reports, although each numbers the records
in the order in which they came. -/
theorem run_order_irrelevant {options options' : StoreOptions} {identifier identifier' : Int32}
    {bands : List Binary64} {created created' : Logged Store}
    (valid : createWith options identifier bands = .ok created)
    (valid' : createWith options' identifier' bands = .ok created')
    {records : List Record} (distinct : (records.map Record.direction).Nodup)
    (lengths : ∀ record ∈ records, record.attenuation.size = bands.length)
    {operations operations' : List Operation}
    (offered : (operations.flatMap Operation.offered).Perm records)
    (offered' : (operations'.flatMap Operation.offered).Perm records)
    (chosen : operations.foldl Operation.chosen options.interpolation =
      operations'.foldl Operation.chosen options'.interpolation) :
    let a := created.value.run operations
    let b := created'.value.run operations'
    (a.arena.toList = operations.flatMap Operation.offered ∧
      b.arena.toList = operations'.flatMap Operation.offered) ∧
      a.records = b.records ∧
      ∀ lib, a.answerBy lib = b.answerBy lib ∧ a.answer lib = b.answer lib ∧
        a.attenuation lib = b.attenuation lib ∧ a.attenuations lib = b.attenuations lib ∧
        a.attenuationTable lib = b.attenuationTable lib := by
  intro a b
  have arena : a.arena.toList = operations.flatMap Operation.offered := by
    refine arena_run_of_createWith valid operations ?_ ?_
    · intro record member
      exact lengths record (offered.mem_iff.mp member)
    · exact (offered.map Record.direction).nodup_iff.mpr distinct
  have arena' : b.arena.toList = operations'.flatMap Operation.offered := by
    refine arena_run_of_createWith valid' operations' ?_ ?_
    · intro record member
      exact lengths record (offered'.mem_iff.mp member)
    · exact (offered'.map Record.direction).nodup_iff.mpr distinct
  have perm : a.arena.toList.Perm b.arena.toList := by
    rw [arena, arena']
    exact offered.trans offered'.symm
  have alike : a.Alike b := by
    have initial := arranged_of_createWith valid
    have initial' := arranged_of_createWith valid'
    obtain ⟨axis, bandAxis, empty⟩ := createWith_eq_ok valid
    obtain ⟨axis', bandAxis', empty'⟩ := createWith_eq_ok valid'
    obtain rfl : axis = axis' := Except.ok.inj (bandAxis.symm.trans bandAxis')
    refine ⟨?_, ?_, ?_, (initial.run operations).records_eq_of_perm (initial'.run operations') ?_ perm⟩
    · rw [initial.axis_run, initial'.axis_run, empty, empty']
    · rw [initial.interpolation_run, initial'.interpolation_run, empty, empty']
      exact chosen
    · simpa [size] using perm.length_eq
    · rw [directions, arena]
      exact (offered.map Record.direction).nodup_iff.mpr distinct
  exact ⟨⟨arena, arena'⟩, funext alike.records, fun lib => ⟨alike.answerBy lib, alike.answer lib,
    alike.attenuation lib, alike.attenuations lib, alike.attenuationTable lib⟩⟩

def squareRunReversed : List Operation :=
  [.insert (single 0 1), .insert (single 1 0), .insert (single 0 0), .insert (single 1 1)]

theorem run_order_irrelevant_squareRun :
    ∃ a b : Store, a.Reachable ∧ b.Reachable ∧ a.arena ≠ b.arena ∧ a.records = b.records ∧
      ∀ lib, a.attenuation lib = b.attenuation lib := by
  obtain ⟨created, valid⟩ : ∃ created, createWith {} 1 [hundredHertz] = .ok created := ⟨_, rfl⟩
  obtain ⟨created', valid'⟩ : ∃ created, createWith ⟨.nearest⟩ 2 [hundredHertz] = .ok created :=
    ⟨_, rfl⟩
  have reversed : (squareRunReversed.flatMap Operation.offered).Perm
      (squareRun.flatMap Operation.offered) :=
    List.reverse_perm (squareRun.flatMap Operation.offered)
  obtain ⟨⟨arena, arena'⟩, records, answers⟩ :=
    run_order_irrelevant valid valid' (by decide) (by decide) (List.Perm.refl _) reversed rfl
  refine ⟨_, _, ⟨_, _, _, created, squareRun, valid, rfl⟩,
    ⟨_, _, _, created', squareRunReversed, valid', rfl⟩, fun same => ?_, records,
    fun lib => (answers lib).2.2.1⟩
  have same : squareRun.flatMap Operation.offered =
      squareRunReversed.flatMap Operation.offered := by rw [← arena, ← arena', same]
  exact absurd (congrArg (List.map Record.direction) same) (by decide)

end Directivity.Store
