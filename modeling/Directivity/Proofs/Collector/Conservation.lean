import Directivity.Collector
import Mathlib.Algebra.BigOperators.Group.List.Basic
import Mathlib.Algebra.GroupWithZero.Nat

set_option autoImplicit false
set_option relaxedAutoImplicit false

namespace Directivity.Collector

inductive Kind
  | point
  | triangle
  deriving DecidableEq

abbrev Kind.Result : Kind → Type
  | .point => PointResult
  | .triangle => TriangleResult

def Kind.taken : Kind → Nat → Event
  | .point => .pointsTaken
  | .triangle => .trianglesTaken

def pending (collector : Collector) : (kind : Kind) → List kind.Result
  | .point => collector.points.toList
  | .triangle => collector.triangles.toList

def Operation.take : Kind → Operation
  | .point => .takePoints
  | .triangle => .takeTriangles

/-- What an operation adds to the results of a kind. -/
def Operation.recorded : Operation → (kind : Kind) → List kind.Result
  | .recordPoint result, .point => [result]
  | .recordTriangle result, .triangle => [result]
  | _, _ => []

def Outcome.taken : Outcome → (kind : Kind) → List kind.Result
  | .points results, .point => results
  | .triangles results, .triangle => results
  | _, _ => []

inductive Statistic
  | count (tally : Tally)
  | totalTime
  | leastTime
  | greatestTime

def Statistic.combine : Statistic → UInt64 → UInt64 → UInt64
  | .count _, kept, word => kept + word
  | .totalTime, kept, word => UInt64.ofNat (min (kept.toNat + word.toNat) unreported.toNat)
  | .leastTime, kept, word => min kept word
  | .greatestTime, kept, word => max kept word

def statistic (collector : Collector) : Statistic → UInt64
  | .count tally => collector.counters.get tally
  | .totalTime => collector.times.total
  | .leastTime => collector.times.least
  | .greatestTime => collector.times.greatest

/-- The words that an operation has for a statistic. -/
def Operation.words : Operation → Statistic → List UInt64
  | .count tally amount, .count other => if tally = other then [amount] else []
  | .addTime nanoseconds, .totalTime => [timeWord nanoseconds]
  | .reportShortest nanoseconds, .leastTime => [timeWord nanoseconds]
  | .reportLongest nanoseconds, .greatestTime => [timeWord nanoseconds]
  | _, _ => []

/-- What an operation reports when it has this outcome: a message itself, and a take the number of
the results that it hands out. -/
def Operation.reports : Operation → Outcome → List Event
  | _, .points results => [Kind.point.taken results.length]
  | _, .triangles results => [Kind.triangle.taken results.length]
  | .message text, .nothing => [.message text]
  | _, .nothing => []

/-! ### One operation -/

theorem taken_append_pending_apply (collector : Collector) (operation : Operation) (kind : Kind) :
    (collector.apply operation).value.1.taken kind ++
        (collector.apply operation).value.2.pending kind =
      collector.pending kind ++ operation.recorded kind := by
  cases operation <;> cases kind <;>
    simp [apply, takePoints, takeTriangles, pending, Outcome.taken, Operation.recorded]

theorem get_add (counters : Counters) (amount : UInt64) (tally other : Tally) :
    (counters.add amount tally).get other =
      if tally = other then counters.get other + amount else counters.get other := by
  cases tally <;> cases other <;> rfl

theorem statistic_apply (collector : Collector) (operation : Operation) (statistic : Statistic) :
    (collector.apply operation).value.2.statistic statistic =
      (operation.words statistic).foldl statistic.combine (collector.statistic statistic) := by
  cases operation with
  | count tally amount =>
    cases statistic with
    | count other =>
      simp only [Operation.words]
      split_ifs with same
      · exact (get_add ..).trans (if_pos same)
      · exact (get_add ..).trans (if_neg same)
    | totalTime | leastTime | greatestTime => rfl
  | recordPoint | recordTriangle | takePoints | takeTriangles | message | addTime
  | reportShortest | reportLongest => cases statistic <;> rfl

theorem events_apply (collector : Collector) (operation : Operation) :
    (collector.apply operation).events = operation.reports (collector.apply operation).value.1 := by
  cases operation <;> rfl

theorem apply_take (collector : Collector) (kind : Kind) :
    let step := collector.apply (.take kind)
    step.value.1.taken kind = collector.pending kind ∧
      step.value.2.pending kind = [] ∧
      step.events = [kind.taken (step.value.1.taken kind).length] := by
  cases kind <;> exact ⟨rfl, rfl, rfl⟩

theorem severity_taken (kind : Kind) (number : Nat) :
    (kind.taken number).severity = .debug := by
  cases kind <;> rfl

/-! ### Runs -/

theorem value_run_cons (collector : Collector) (operation : Operation)
    (operations : List Operation) :
    (collector.run (operation :: operations)).value =
      ((collector.apply operation).value.1 ::
          ((collector.apply operation).value.2.run operations).value.1,
        ((collector.apply operation).value.2.run operations).value.2) := rfl

theorem taken_append_pending_run (collector : Collector) (operations : List Operation)
    (kind : Kind) :
    (collector.run operations).value.1.flatMap (·.taken kind) ++
        (collector.run operations).value.2.pending kind =
      collector.pending kind ++ operations.flatMap (·.recorded kind) := by
  induction operations generalizing collector with
  | nil => exact (List.append_nil _).symm
  | cons operation operations ih =>
    rw [value_run_cons, List.flatMap_cons, List.append_assoc, ih, ← List.append_assoc,
      taken_append_pending_apply, List.append_assoc, List.flatMap_cons]

theorem statistic_run (collector : Collector) (operations : List Operation)
    (statistic : Statistic) :
    (collector.run operations).value.2.statistic statistic =
      (operations.flatMap (·.words statistic)).foldl statistic.combine
        (collector.statistic statistic) := by
  induction operations generalizing collector with
  | nil => rfl
  | cons operation operations ih =>
    rw [value_run_cons, ih, statistic_apply, List.flatMap_cons, List.foldl_append]

theorem events_run (collector : Collector) (operations : List Operation) :
    (collector.run operations).events =
      (List.zipWith Operation.reports operations (collector.run operations).value.1).flatten := by
  induction operations generalizing collector with
  | nil => rfl
  | cons operation operations ih =>
    rw [value_run_cons, List.zipWith_cons_cons, List.flatten_cons, ← ih, ← events_apply]
    exact congrArg _ (List.append_nil _)

theorem toNat_foldl_add (words : List UInt64) (kept : UInt64) :
    (words.foldl (· + ·) kept).toNat = (kept.toNat + (words.map UInt64.toNat).sum) % 2 ^ 64 := by
  induction words generalizing kept with
  | nil => exact (Nat.mod_eq_of_lt kept.toNat_lt).symm
  | cons word words ih =>
    rw [List.foldl_cons, ih, UInt64.toNat_add, Nat.mod_add_mod, List.map_cons, List.sum_cons,
      Nat.add_assoc]

theorem toNat_counters_run (operations : List Operation) (tally : Tally) :
    ((run {} operations).value.2.counters.get tally).toNat =
      ((operations.flatMap (·.words (.count tally))).map UInt64.toNat).sum % 2 ^ 64 := by
  have kept := congrArg UInt64.toNat (statistic_run {} operations (.count tally))
  have fresh : (statistic {} (.count tally)).toNat = 0 := by cases tally <;> rfl
  refine kept.trans ((toNat_foldl_add _ _).trans ?_)
  rw [fresh, Nat.zero_add]

theorem sum_words_cells {operations : List Operation}
    (ones : ∀ amount, .count .cells amount ∈ operations → amount = 1) :
    ((operations.flatMap (·.words (.count .cells))).map UInt64.toNat).sum =
      operations.countP (· matches .count .cells _) := by
  induction operations with
  | nil => rfl
  | cons operation operations ih =>
    have rest := ih fun amount member => ones amount (List.mem_cons_of_mem _ member)
    rw [List.flatMap_cons, List.map_append, List.sum_append, rest, List.countP_cons,
      Nat.add_comm]
    congr 1
    cases operation with
    | count tally amount =>
      cases tally with
      | cells =>
        obtain rfl := ones amount List.mem_cons_self
        rfl
      | sources | freeFieldTests | imageReceivers | reflections | diffractions => rfl
    | recordPoint | recordTriangle | takePoints | takeTriangles | message | addTime
    | reportShortest | reportLongest => rfl

/-- Whatever a new collector is asked to do: of either kind, the results that were taken and then
those that wait are the recorded ones, in order. A further take hands out those that wait, leaves
none of them and reports their number, and nothing is reported but takes and messages. A counter is
the sum of the amounts for it alone, modulo `2 ^ 64`; that of the cells counts their operations. -/
theorem run_conserves (operations : List Operation) :
    let outcomes := (run {} operations).value.1
    let final := (run {} operations).value.2
    (∀ kind,
      outcomes.flatMap (·.taken kind) ++ final.pending kind =
          operations.flatMap (·.recorded kind) ∧
        let step := final.apply (.take kind)
        step.value.1.taken kind = final.pending kind ∧ step.value.2.pending kind = [] ∧
          ∃ report, step.events = [report] ∧ report.severity = .debug ∧
            report = kind.taken (step.value.1.taken kind).length) ∧
      (run {} operations).events = (List.zipWith Operation.reports operations outcomes).flatten ∧
      (∀ tally, (final.counters.get tally).toNat =
        ((operations.flatMap (·.words (.count tally))).map UInt64.toNat).sum % 2 ^ 64) ∧
      ((∀ amount, .count .cells amount ∈ operations → amount = 1) →
        final.counters.cells.toNat = operations.countP (· matches .count .cells _) % 2 ^ 64) := by
  intro outcomes final
  refine ⟨fun kind => ⟨?_, ?_⟩, events_run {} operations, toNat_counters_run operations,
    fun ones => ?_⟩
  · refine (taken_append_pending_run {} operations kind).trans ?_
    cases kind <;> rfl
  · obtain ⟨all, none, reported⟩ := apply_take final kind
    exact ⟨all, none, _, reported, severity_taken kind _, rfl⟩
  · rw [← sum_words_cells ones]
    exact toNat_counters_run operations .cells

def mixedRun : List Operation :=
  [.recordPoint ⟨0, 0, 0⟩, .recordTriangle ⟨⟨0, 1, 2⟩, ⟨0, 0, 0⟩, 0⟩, .count .cells 1,
    .takePoints, .message "half", .count .reflections 3, .recordPoint ⟨1, 0, 0⟩,
    .count .cells 1]

theorem run_conserves_mixedRun :
    (∀ amount, .count .cells amount ∈ mixedRun → amount = 1) ∧
      (run {} mixedRun).value.2.counters.cells.toNat = 2 := by
  have ones : ∀ amount, Operation.count .cells amount ∈ mixedRun → amount = 1 := by
    simp [mixedRun]
  exact ⟨ones, (run_conserves mixedRun).2.2.2 ones⟩

end Directivity.Collector
