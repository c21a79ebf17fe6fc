import Directivity.Store.Run
import Mathlib.Tactic.SplitIfs

set_option autoImplicit false
set_option relaxedAutoImplicit false

namespace Directivity.Store

variable {store : Store} {records : List Record}

theorem insert_eq (store : Store) (record : Record) :
    store.insert record =
      if record.attenuation.size = store.axis.size then .ok (store.place record)
      else .error (.attenuationLength store.axis.size record.attenuation.size) := by
  unfold insert checkLength
  split_ifs with length <;> rfl

private theorem forM_checkLength (store : Store) (records : List Record) :
    records.forM store.checkLength =
      match records.find? fun record => record.attenuation.size != store.axis.size with
      | some record => .error (.attenuationLength store.axis.size record.attenuation.size)
      | none => .ok () := by
  induction records with
  | nil => rfl
  | cons record records ih =>
    rw [List.forM]
    by_cases length : record.attenuation.size = store.axis.size
    · have passed : store.checkLength record = .ok () := if_pos length
      rw [passed, List.find?_cons_of_neg (by simp [length]), ← ih]
      rfl
    · have refused : store.checkLength record =
          .error (.attenuationLength store.axis.size record.attenuation.size) := if_neg length
      rw [refused, List.find?_cons_of_pos (by simpa using length)]
      rfl

private theorem insertAll_eq (store : Store) (records : List Record) :
    store.insertAll records =
      match records.find? fun record => record.attenuation.size != store.axis.size with
      | some record => .error (.attenuationLength store.axis.size record.attenuation.size)
      | none => .ok (do
          Logged.report
            (.recordsAdded store.identifier records.length (store.addAll records).size)
          return store.addAll records) := by
  rw [insertAll, forM_checkLength]
  split <;> rfl

theorem insertAll_of_lengths
    (lengths : ∀ record ∈ records, record.attenuation.size = store.axis.size) :
    store.insertAll records = .ok ⟨store.addAll records,
      [.recordsAdded store.identifier records.length (store.addAll records).size]⟩ := by
  have none : (records.find? fun record => record.attenuation.size != store.axis.size) = none := by
    simpa using lengths
  rw [insertAll_eq, none]
  rfl

theorem insertAll_of_first {before behind : List Record} {record : Record}
    (earlier : ∀ other ∈ before, other.attenuation.size = store.axis.size)
    (wrong : record.attenuation.size ≠ store.axis.size) :
    store.insertAll (before ++ record :: behind) =
      .error (.attenuationLength store.axis.size record.attenuation.size) := by
  have first : ((before ++ record :: behind).find? fun other =>
      other.attenuation.size != store.axis.size) = some record := by
    rw [List.find?_eq_some_iff_append]
    exact ⟨by simpa using wrong, before, behind, rfl, by simpa using earlier⟩
  rw [insertAll_eq, first]

theorem exists_first_wrong (wrong : ∃ record ∈ records, record.attenuation.size ≠ store.axis.size) :
    ∃ before record behind, records = before ++ record :: behind ∧
      (∀ earlier ∈ before, earlier.attenuation.size = store.axis.size) ∧
      record.attenuation.size ≠ store.axis.size := by
  have found : (records.find? fun record => record.attenuation.size != store.axis.size).isSome := by
    simpa using wrong
  obtain ⟨record, first⟩ := Option.isSome_iff_exists.mp found
  obtain ⟨differs, before, behind, parts, earlier⟩ := List.find?_eq_some_iff_append.mp first
  exact ⟨before, record, behind, parts, by simpa using earlier, by simpa using differs⟩

end Directivity.Store
