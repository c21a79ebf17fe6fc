import Directivity.Proofs.Collector.Conservation
import Mathlib.Logic.Function.Basic

/-!
Workers that share a collector.

Every operation is one step, so workers that run at the same time make one sequence of steps, in
which each has its calls in its own order. All such sequences have the same steps, and a statistic
takes up its words in any order with the same result. The results come out in the order of the steps
that recorded them, so those of one worker keep its order.
-/

set_option autoImplicit false
set_option relaxedAutoImplicit false

namespace Directivity

section Interleaving

variable {Worker α β : Type*} [DecidableEq Worker]

/-- The steps of some workers: each is the next call of one of them, until no worker has a call
left. -/
inductive Interleaving : (Worker → List α) → List (Worker × α) → Prop
  | finished {calls : Worker → List α} (idle : ∀ worker, calls worker = []) : Interleaving calls []
  | step {calls : Worker → List α} {worker : Worker} {call : α} {rest : List α}
      {steps : List (Worker × α)} (next : calls worker = call :: rest)
      (later : Interleaving (Function.update calls worker rest) steps) :
      Interleaving calls ((worker, call) :: steps)

def partOf (worker : Worker) (steps : List (Worker × α)) : List α :=
  steps.filterMap fun step => if step.1 = worker then some step.2 else none

theorem partOf_cons (worker : Worker) (step : Worker × α) (steps : List (Worker × α)) :
    partOf worker (step :: steps) =
      if step.1 = worker then step.2 :: partOf worker steps else partOf worker steps := by
  unfold partOf
  split_ifs with same <;> simp [same]

theorem interleaving_iff {calls : Worker → List α} {steps : List (Worker × α)} :
    Interleaving calls steps ↔ ∀ worker, partOf worker steps = calls worker := by
  constructor
  · intro interleaving
    induction interleaving with
    | finished idle => exact fun worker => (idle worker).symm
    | @step calls worker call rest steps next _ ih =>
      intro other
      rw [partOf_cons, ih]
      by_cases same : worker = other
      · subst same
        rw [if_pos rfl, Function.update_self, next]
      · rw [if_neg same, Function.update_of_ne (Ne.symm same)]
  · intro all
    induction steps generalizing calls with
    | nil => exact .finished fun worker => (all worker).symm
    | cons step steps ih =>
      obtain ⟨worker, call⟩ := step
      have next : calls worker = call :: partOf worker steps := by
        rw [← all worker, partOf_cons, if_pos rfl]
      refine .step next (ih fun other => ?_)
      by_cases same : other = worker
      · subst same
        rw [Function.update_self]
      · rw [Function.update_of_ne same, ← all other, partOf_cons, if_neg (Ne.symm same)]

theorem count_partOf [DecidableEq α] (worker : Worker) (call : α) (steps : List (Worker × α)) :
    (partOf worker steps).count call = steps.count (worker, call) := by
  induction steps with
  | nil => rfl
  | cons step steps ih =>
    obtain ⟨other, first⟩ := step
    rw [partOf_cons, List.count_cons, ← ih]
    by_cases same : other = worker
    · have first_eq : ((other, first) == (worker, call)) = (first == call) := by simp [same]
      rw [if_pos same, List.count_cons, first_eq]
    · rw [if_neg same, if_neg (by simp [same]), Nat.add_zero]

theorem Interleaving.perm {calls : Worker → List α} {steps steps' : List (Worker × α)}
    (one : Interleaving calls steps) (other : Interleaving calls steps') : steps.Perm steps' := by
  classical
  refine List.perm_iff_count.mpr fun step => ?_
  rw [← count_partOf, ← count_partOf, interleaving_iff.mp one, interleaving_iff.mp other]

theorem Interleaving.flatMap {calls : Worker → List α} {steps : List (Worker × α)}
    (interleaving : Interleaving calls steps) (leaves : α → List β) :
    Interleaving (fun worker => (calls worker).flatMap leaves)
      (steps.flatMap fun step => (leaves step.2).map (Prod.mk step.1)) := by
  refine interleaving_iff.mpr fun worker => ?_
  rw [← interleaving_iff.mp interleaving worker]
  clear interleaving
  induction steps with
  | nil => rfl
  | cons step steps ih =>
    have first : partOf worker ((leaves step.2).map (Prod.mk step.1)) =
        if step.1 = worker then leaves step.2 else [] := by
      unfold partOf
      split_ifs with same <;> simp [same]
    have append : ∀ xs ys : List (Worker × β),
        partOf worker (xs ++ ys) = partOf worker xs ++ partOf worker ys := fun _ _ =>
      List.filterMap_append
    rw [List.flatMap_cons, append, first, ih, partOf_cons]
    split_ifs
    · rw [List.flatMap_cons]
    · rfl

end Interleaving

namespace Collector

instance (statistic : Statistic) : RightCommutative statistic.combine where
  right_comm kept a b := by
    have bounded : ∀ n, (UInt64.ofNat (min n unreported.toNat)).toNat = min n unreported.toNat :=
      fun n => UInt64.toNat_ofNat_of_lt' <|
        Nat.lt_of_le_of_lt (Nat.min_le_right n unreported.toNat) unreported.toNat_lt
    cases statistic with
    | count =>
      show kept + a + b = kept + b + a
      rw [UInt64.add_assoc, UInt64.add_comm a, ← UInt64.add_assoc]
    | totalTime =>
      refine UInt64.toNat_inj.mp ?_
      simp only [Statistic.combine, bounded]
      omega
    | leastTime =>
      refine UInt64.toNat_inj.mp ?_
      simp only [Statistic.combine, UInt64.toNat_min]
      omega
    | greatestTime =>
      refine UInt64.toNat_inj.mp ?_
      simp only [Statistic.combine, UInt64.toNat_max]
      omega

theorem statistic_run_perm {operations operations' : List Operation}
    (perm : operations.Perm operations') (collector : Collector) (statistic : Statistic) :
    (collector.run operations).value.2.statistic statistic =
      (collector.run operations').value.2.statistic statistic := by
  rw [statistic_run, statistic_run]
  exact (perm.flatMap_right _).foldl_eq _

theorem counters_eq_of_get {a b : Counters} (same : ∀ tally, a.get tally = b.get tally) : a = b := by
  cases a
  cases b
  rw [Counters.mk.injEq]
  exact ⟨same .sources, same .freeFieldTests, same .imageReceivers, same .reflections,
    same .diffractions, same .cells⟩

theorem times_eq_of_statistic {a b : Collector}
    (same : ∀ statistic, a.statistic statistic = b.statistic statistic) : a.times = b.times := by
  obtain ⟨_, _, _, times⟩ := a
  obtain ⟨_, _, _, times'⟩ := b
  cases times
  cases times'
  exact (Times.mk.injEq ..).mpr ⟨same .totalTime, same .leastTime, same .greatestTime⟩

/-- However workers take turns at a new collector, it ends up with the same counters and the same
times. And in every such sequence, the results of a kind that the takes handed out, one take after
the other, and then those that wait are what the workers recorded, each once, and those of one
worker in its order. -/
theorem interleavings_agree {Worker : Type*} [DecidableEq Worker]
    {calls : Worker → List Operation} {steps steps' : List (Worker × Operation)}
    (one : Interleaving calls steps) (other : Interleaving calls steps') :
    let outcomes := (run {} (steps.map Prod.snd)).value.1
    let final := (run {} (steps.map Prod.snd)).value.2
    let final' := (run {} (steps'.map Prod.snd)).value.2
    final.counters = final'.counters ∧ final.times = final'.times ∧
      ∀ kind, ∃ delivered : List (Worker × kind.Result),
        delivered.map Prod.snd = outcomes.flatMap (·.taken kind) ++ final.pending kind ∧
          Interleaving (fun worker => (calls worker).flatMap (·.recorded kind)) delivered := by
  intro outcomes final final'
  have same : ∀ statistic, final.statistic statistic = final'.statistic statistic :=
    statistic_run_perm ((one.perm other).map Prod.snd) {}
  refine ⟨counters_eq_of_get fun tally => same (.count tally), times_eq_of_statistic same,
    fun kind => ⟨_, ?_, one.flatMap (·.recorded kind)⟩⟩
  have conserved := taken_append_pending_run {} (steps.map Prod.snd) kind
  have nothing : pending {} kind = [] := by cases kind <;> rfl
  rw [conserved, nothing, List.nil_append, List.map_flatMap, List.flatMap_map]
  simp only [List.map_map, Function.comp_def, List.map_id']

def twoWorkers : Bool → List Operation
  | false => [.recordPoint ⟨0, 0, 0⟩, .takePoints]
  | true => [.recordPoint ⟨1, 0, 0⟩, .addTime 5]

theorem interleavings_agree_twoWorkers :
    ∃ steps steps', Interleaving twoWorkers steps ∧ Interleaving twoWorkers steps' ∧
      (run {} (steps.map Prod.snd)).value.2.pending .point ≠
        (run {} (steps'.map Prod.snd)).value.2.pending .point ∧
      (run {} (steps.map Prod.snd)).value.2.times = (run {} (steps'.map Prod.snd)).value.2.times := by
  have early : Interleaving twoWorkers [(false, .recordPoint ⟨0, 0, 0⟩), (false, .takePoints),
      (true, .recordPoint ⟨1, 0, 0⟩), (true, .addTime 5)] :=
    interleaving_iff.mpr fun worker => by cases worker <;> rfl
  have late : Interleaving twoWorkers [(true, .recordPoint ⟨1, 0, 0⟩), (true, .addTime 5),
      (false, .recordPoint ⟨0, 0, 0⟩), (false, .takePoints)] :=
    interleaving_iff.mpr fun worker => by cases worker <;> rfl
  exact ⟨_, _, early, late, List.cons_ne_nil _ _, (interleavings_agree early late).2.1⟩

end Collector

end Directivity
