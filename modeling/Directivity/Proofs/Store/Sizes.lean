import Directivity.Proofs.BandAxis.Ascending
import Directivity.Proofs.Store.Neighbours

set_option autoImplicit false
set_option relaxedAutoImplicit false

namespace Directivity

namespace BandAxis

theorem exactColumn?_lt {bands : List Binary64} {axis : BandAxis} (valid : ofList bands = .ok axis)
    {frequency : Binary64} {column : Nat} (found : axis.exactColumn? frequency = some column) :
    column < axis.size :=
  (Array.getElem?_eq_some_iff.mp ((exactColumn?_eq_some_iff valid).mp found)).1

theorem column_lt {bands : List Binary64} {axis : BandAxis} (valid : ofList bands = .ok axis)
    (frequency : Binary64) : (axis.column frequency).value < axis.size := by
  unfold column
  split
  next column found => exact exactColumn?_lt valid found
  next => exact (axis.nearestColumn frequency).isLt

end BandAxis

namespace Cell

theorem nearestCorner_mem (distance : Record → Binary64) (cell : Cell Record) :
    cell.nearestCorner distance ∈ cell.corners := by
  refine List.foldlRecOn (motive := fun best : Record × Binary64 => best.1 ∈ cell.corners)
    cell.corners _ List.mem_cons_self ?_
  intro best kept record member
  split_ifs
  · exact member
  · exact kept

theorem size_interpolate (lib : Elementary) (cell : Cell Record) (direction : Direction)
    {size : Nat} (sizes : ∀ record ∈ cell.corners, record.attenuation.size = size) :
    (cell.interpolate lib direction).attenuation.size = size := by
  simp only [corners, List.forall_mem_cons] at sizes
  obtain ⟨h00, h10, h11, h01, -⟩ := sizes
  simp [interpolate, bands, h00, h10, h11, h01]

end Cell

namespace Store

variable {store : Store} {direction : Direction}

theorem find?_mem {record : Record} (found : store.find? direction = some record) :
    record ∈ store.arena := by
  unfold find? at found
  split at found
  · obtain ⟨number, _, rfl⟩ := Option.map_eq_some_iff.mp found
    exact Array.getElem_mem _
  · cases found

theorem cell?_mem {cell : Cell Record} (found : store.cell? direction = some cell) :
    ∀ record ∈ cell.corners, record ∈ store.arena := by
  simp only [cell?, Option.bind_eq_bind, Option.bind_eq_some_iff, Option.pure_def,
    Option.some_inj] at found
  obtain ⟨_, _, _, _, c00, h00, c10, h10, c11, h11, c01, h01, rfl⟩ := found
  simp [Cell.corners, find?_mem h00, find?_mem h10, find?_mem h11, find?_mem h01]

theorem Arranged.size_answerBy (arranged : store.Arranged) (lib : Elementary)
    (interpolation : Interpolation) (direction : Direction) :
    (store.answerBy lib interpolation direction).value.record.attenuation.size =
      store.axis.size := by
  unfold answerBy
  cases found : store.cell? direction with
  | none =>
    show (Array.replicate store.axis.size (0 : Binary64)).size = store.axis.size
    exact Array.size_replicate
  | some cell =>
    have sizes : ∀ record ∈ cell.corners, record.attenuation.size = store.axis.size :=
      fun record member => arranged.lengths record (cell?_mem found record member)
    cases interpolation with
    | nearest => exact sizes _ (cell.nearestCorner_mem _)
    | bilinear => exact cell.size_interpolate lib direction sizes

end Store

end Directivity
