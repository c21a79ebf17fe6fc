import Directivity.Proofs.Collector.Conservation
import Mathlib.Algebra.Order.BigOperators.Group.List
import Mathlib.Algebra.Order.Group.Nat

set_option autoImplicit false
set_option relaxedAutoImplicit false

namespace Directivity.Collector

/-- The times, in nanoseconds, that an operation has for a statistic. -/
def Operation.durations : Operation → Statistic → List Nat
  | .addTime nanoseconds, .totalTime => [nanoseconds]
  | .reportShortest nanoseconds, .leastTime => [nanoseconds]
  | .reportLongest nanoseconds, .greatestTime => [nanoseconds]
  | _, _ => []

def durations (operations : List Operation) (statistic : Statistic) : List Nat :=
  operations.flatMap (·.durations statistic)

/-- A time as a collector counts it: no longer than the second greatest word. -/
def counted (nanoseconds : Nat) : Nat :=
  min nanoseconds (2 ^ 64 - 2)

theorem toNat_timeWord (nanoseconds : Nat) : (timeWord nanoseconds).toNat = counted nanoseconds := by
  have second : unreported.toNat - 1 = 2 ^ 64 - 2 := by decide
  rw [timeWord, second]
  exact UInt64.toNat_ofNat_of_lt' (Nat.lt_of_le_of_lt (Nat.min_le_right _ _) (by decide))

theorem counted_lt_unreported (nanoseconds : Nat) : counted nanoseconds < unreported.toNat :=
  Nat.lt_of_le_of_lt (Nat.min_le_right _ _) (by decide)

theorem toNat_words (statistic : Statistic) (timed : ∀ tally, statistic ≠ .count tally)
    (operations : List Operation) :
    (operations.flatMap (·.words statistic)).map UInt64.toNat =
      (durations operations statistic).map counted := by
  have each : ∀ operation : Operation,
      (operation.words statistic).map UInt64.toNat = (operation.durations statistic).map counted := by
    intro operation
    cases statistic with
    | count tally => exact absurd rfl (timed tally)
    | totalTime | leastTime | greatestTime =>
      cases operation <;> simp [Operation.words, Operation.durations, toNat_timeWord]
  rw [durations, List.map_flatMap, List.map_flatMap]
  simp only [each]

/-! ### Folds of words -/

theorem toNat_foldl_min (words : List UInt64) (kept : UInt64) :
    (words.foldl min kept).toNat = (words.map UInt64.toNat).foldl min kept.toNat := by
  induction words generalizing kept with
  | nil => rfl
  | cons word words ih => rw [List.foldl_cons, ih, UInt64.toNat_min, List.map_cons, List.foldl_cons]

theorem toNat_foldl_max (words : List UInt64) (kept : UInt64) :
    (words.foldl max kept).toNat = (words.map UInt64.toNat).foldl max kept.toNat := by
  induction words generalizing kept with
  | nil => rfl
  | cons word words ih => rw [List.foldl_cons, ih, UInt64.toNat_max, List.map_cons, List.foldl_cons]

theorem toNat_foldl_total (words : List UInt64) (kept : UInt64) :
    (words.foldl (Statistic.combine .totalTime) kept).toNat =
      min (kept.toNat + (words.map UInt64.toNat).sum) unreported.toNat := by
  induction words generalizing kept with
  | nil => exact (Nat.min_eq_left (Nat.le_of_lt_succ kept.toNat_lt)).symm
  | cons word words ih =>
    have stops : (Statistic.combine .totalTime kept word).toNat =
        min (kept.toNat + word.toNat) unreported.toNat :=
      UInt64.toNat_ofNat_of_lt' (Nat.lt_of_le_of_lt (Nat.min_le_right _ _) unreported.toNat_lt)
    rw [List.foldl_cons, ih, stops, List.map_cons, List.sum_cons]
    omega

/-! ### Runs -/

theorem shortest?_run (operations : List Operation) :
    (run {} operations).value.2.times.shortest?.map UInt64.toNat =
      ((durations operations .leastTime).map counted).min? := by
  obtain ⟨least, kept⟩ : ∃ least, least = (run {} operations).value.2.times.least := ⟨_, rfl⟩
  have fold : least.toNat = min unreported.toNat
      (((durations operations .leastTime).map counted).min?.getD unreported.toNat) := by
    have run := statistic_run {} operations .leastTime
    rw [kept, ← List.foldl_min, ← toNat_words .leastTime nofun, ← toNat_foldl_min]
    exact congrArg UInt64.toNat run
  rw [Times.shortest?, ← kept]
  cases reported : ((durations operations .leastTime).map counted).min? with
  | none =>
    rw [reported, Option.getD_none, Nat.min_self] at fold
    rw [if_pos (UInt64.toNat_inj.mp fold)]
    rfl
  | some first =>
    obtain ⟨duration, -, cut⟩ := List.mem_map.mp (List.min?_eq_some_iff.mp reported).1
    have below : first < unreported.toNat := cut ▸ counted_lt_unreported duration
    rw [reported, Option.getD_some, Nat.min_eq_right below.le] at fold
    have told : least ≠ unreported := fun same => below.ne (fold.symm.trans (congrArg _ same))
    rw [if_neg told, Option.map_some, fold]

theorem toNat_greatest_run (operations : List Operation) :
    (run {} operations).value.2.times.greatest.toNat =
      ((durations operations .greatestTime).map counted).max?.getD 0 := by
  have fold : (run {} operations).value.2.times.greatest.toNat =
      ((durations operations .greatestTime).map counted).foldl max 0 := by
    rw [← toNat_words .greatestTime nofun]
    exact (congrArg UInt64.toNat (statistic_run {} operations .greatestTime)).trans
      (toNat_foldl_max _ _)
  rw [fold, List.foldl_max, Nat.zero_max]

theorem toNat_total_run (operations : List Operation) :
    (run {} operations).value.2.times.total.toNat =
      min (2 ^ 64 - 1) ((durations operations .totalTime).map counted).sum := by
  have fold := (congrArg UInt64.toNat (statistic_run {} operations .totalTime)).trans
    (toNat_foldl_total _ _)
  rw [toNat_words .totalTime nofun] at fold
  exact fold.trans (by rw [Nat.min_comm]; congr 1; exact Nat.zero_add _)

theorem shortest_le_greatest_le_total {operations : List Operation}
    (least : ∀ duration, duration ∈ durations operations .totalTime →
      duration ∈ durations operations .leastTime)
    (greatest : ∀ duration, duration ∈ durations operations .totalTime ↔
      duration ∈ durations operations .greatestTime)
    (told : durations operations .totalTime ≠ []) :
    let times := (run {} operations).value.2.times
    ∃ shortest, times.shortest? = some shortest ∧ shortest ≤ times.greatest ∧
      times.greatest ≤ times.total := by
  intro times
  obtain ⟨duration, added⟩ := List.exists_mem_of_ne_nil _ told
  have counts : ∀ statistic, duration ∈ durations operations statistic →
      counted duration ∈ (durations operations statistic).map counted := fun _ =>
    List.mem_map_of_mem
  obtain ⟨first, minimum⟩ := Option.ne_none_iff_exists'.mp
    (mt List.min?_eq_none_iff.mp (List.ne_nil_of_mem (counts .leastTime (least _ added))))
  obtain ⟨last, maximum⟩ := Option.ne_none_iff_exists'.mp
    (mt List.max?_eq_none_iff.mp (List.ne_nil_of_mem (counts .greatestTime ((greatest _).mp added))))
  have shortest_run := shortest?_run operations
  have greatest_run := toNat_greatest_run operations
  rw [minimum, Option.map_eq_some_iff] at shortest_run
  rw [maximum, Option.getD_some] at greatest_run
  obtain ⟨shortest, found, toNat_shortest⟩ := shortest_run
  refine ⟨shortest, found, UInt64.le_iff_toNat_le.mpr ?_, UInt64.le_iff_toNat_le.mpr ?_⟩
  · calc shortest.toNat = first := toNat_shortest
      _ ≤ counted duration :=
        (List.min?_eq_some_iff.mp minimum).2 _ (counts .leastTime (least _ added))
      _ ≤ last := (List.max?_eq_some_iff.mp maximum).2 _
        (counts .greatestTime ((greatest _).mp added))
      _ = times.greatest.toNat := greatest_run.symm
  · obtain ⟨longest, reported, rfl⟩ := List.mem_map.mp (List.max?_eq_some_iff.mp maximum).1
    have summed : counted longest ≤ ((durations operations .totalTime).map counted).sum :=
      List.le_sum_of_mem (List.mem_map_of_mem ((greatest _).mpr reported))
    have below := counted_lt_unreported longest
    rw [show unreported.toNat = 2 ^ 64 - 1 by decide] at below
    rw [greatest_run, toNat_total_run]
    exact Nat.le_min.mpr ⟨below.le, summed⟩

/-- Whatever a new collector is asked to do, and with every time cut off at `2 ^ 64 - 2`
nanoseconds: it has a shortest time just where one was reported, and then the least of those
reported; its longest time is the greatest reported, or zero; and its total is the sum of the times
added, up to `2 ^ 64 - 1`. So the three stand in order where the same times, and any at all, were
told for all of them. -/
theorem run_measures (operations : List Operation) :
    let times := (run {} operations).value.2.times
    let told := durations operations
    (times.shortest? = none ↔ told .leastTime = []) ∧
      times.shortest?.map UInt64.toNat = ((told .leastTime).map (min · (2 ^ 64 - 2))).min? ∧
      times.greatest.toNat = ((told .greatestTime).map (min · (2 ^ 64 - 2))).max?.getD 0 ∧
      times.total.toNat =
        min (2 ^ 64 - 1) ((told .totalTime).map (min · (2 ^ 64 - 2))).sum ∧
      ((∀ duration, (duration ∈ told .totalTime ↔ duration ∈ told .leastTime) ∧
          (duration ∈ told .totalTime ↔ duration ∈ told .greatestTime)) →
        told .totalTime ≠ [] →
          ∃ shortest, times.shortest? = some shortest ∧ shortest ≤ times.greatest ∧
            times.greatest ≤ times.total) := by
  intro times told
  have shortest := shortest?_run operations
  refine ⟨?_, shortest, toNat_greatest_run operations, toNat_total_run operations,
    fun same any => ?_⟩
  · rw [← Option.map_eq_none_iff (f := UInt64.toNat), shortest, List.min?_eq_none_iff,
      List.map_eq_nil_iff]
  · exact shortest_le_greatest_le_total (fun duration => (same duration).1.mp)
      (fun duration => (same duration).2) any

def longRun : List Operation :=
  [.addTime (2 ^ 64), .reportShortest (2 ^ 64), .reportLongest (2 ^ 64), .recordPoint ⟨0, 0, 0⟩,
    .addTime 7, .reportLongest 7, .reportShortest 7]

theorem run_measures_longRun :
    durations longRun .totalTime ≠ [] ∧
      ((run {} longRun).value.2.times.total.toNat = 2 ^ 64 - 1) ∧
      (∃ shortest, (run {} longRun).value.2.times.shortest? = some shortest ∧
        shortest ≤ (run {} longRun).value.2.times.greatest ∧
        (run {} longRun).value.2.times.greatest ≤ (run {} longRun).value.2.times.total) ∧
      (run {} [.reportShortest (2 ^ 70)]).value.2.times.shortest?.map UInt64.toNat =
        some (2 ^ 64 - 2) := by
  have told : durations longRun .totalTime ≠ [] := List.cons_ne_nil _ _
  obtain ⟨-, -, -, total, ordered⟩ := run_measures longRun
  have same : ∀ duration,
      (duration ∈ durations longRun .totalTime ↔ duration ∈ durations longRun .leastTime) ∧
        (duration ∈ durations longRun .totalTime ↔ duration ∈ durations longRun .greatestTime) :=
    fun duration => ⟨Iff.rfl, Iff.rfl⟩
  exact ⟨told, total, ordered same told, (run_measures [.reportShortest (2 ^ 70)]).2.1⟩

end Directivity.Collector
