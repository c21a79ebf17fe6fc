import Directivity.Proofs.BandAxis.Ascending
import Directivity.Store.Basic

set_option autoImplicit false
set_option relaxedAutoImplicit false

namespace Directivity

/-- Steps that report as they go. A refusal ends them, and what was reported by then stays. -/
abbrev Reporting :=
  ExceptT Error (StateM (List Event))

namespace Store

def makeWith (options : StoreOptions) (identifier : Int32) (bands : List Binary64) :
    Reporting Store := do
  let axis ← BandAxis.ofList bands
  modify (· ++ [.storeCreated identifier axis.size])
  return ⟨identifier, axis, options.interpolation, #[], #[], #[]⟩

def made (reports : List Event) : Except Error (Logged Store) → Except Error Store × List Event
  | .ok created => (.ok created.value, reports ++ created.events)
  | .error error => (.error error, reports)

theorem run_makeWith (options : StoreOptions) (identifier : Int32) (bands : List Binary64)
    (reports : List Event) :
    (makeWith options identifier bands).run.run reports =
      made reports (createWith options identifier bands) := by
  rw [makeWith, createWith]
  cases BandAxis.ofList bands with
  | error error => rfl
  | ok axis => rfl

end Store

namespace BandAxis

variable {bands : List Binary64} {error : Error}

/-- Why a list of bands is no axis. -/
inductive Refuses : List Binary64 → Error → Prop
  | noBands : Refuses [] .noBands
  | bandNotFinite (before : List Binary64) (band : Binary64) (behind : List Binary64)
      (finite : ∀ other ∈ before, other.isFinite) (infinite : ¬ band.isFinite) :
      Refuses (before ++ band :: behind) (.bandNotFinite band)
  | bandsNotAscending (before : List Binary64) (earlier later : Binary64) (behind : List Binary64)
      (finite : ∀ band ∈ before ++ earlier :: later :: behind, band.isFinite)
      (ascending : (before ++ [earlier]).Pairwise (· < ·)) (descent : later ≤ earlier) :
      Refuses (before ++ earlier :: later :: behind) (.bandsNotAscending earlier later)

theorem firstDescent?_cons_cons (a b : Binary64) (bands : List Binary64) :
    firstDescent? (a :: b :: bands) = if b ≤ a then some (a, b) else firstDescent? (b :: bands) := by
  by_cases descent : b ≤ a <;> simp [firstDescent?, descent]

theorem exists_of_firstDescent? {earlier later : Binary64}
    (found : firstDescent? bands = some (earlier, later)) :
    later ≤ earlier ∧ ∃ before behind, bands = before ++ earlier :: later :: behind ∧
      (before ++ [earlier]).IsChain fun a b => ¬ b ≤ a := by
  induction bands with
  | nil => cases found
  | cons a bands ih =>
    cases bands with
    | nil => cases found
    | cons b bands =>
      rw [firstDescent?_cons_cons] at found
      split_ifs at found with descent
      · cases found
        exact ⟨descent, [], bands, rfl, List.isChain_singleton earlier⟩
      · obtain ⟨descent', before, behind, same, chain⟩ := ih found
        refine ⟨descent', a :: before, behind, congrArg (a :: ·) same, ?_⟩
        cases before with
        | nil =>
          cases same
          exact List.isChain_cons_cons.mpr ⟨descent, chain⟩
        | cons c before =>
          cases same
          exact List.isChain_cons_cons.mpr ⟨descent, chain⟩

theorem firstDescent?_append (before : List Binary64) {earlier later : Binary64}
    (behind : List Binary64) (chain : (before ++ [earlier]).IsChain fun a b => ¬ b ≤ a)
    (descent : later ≤ earlier) :
    firstDescent? (before ++ earlier :: later :: behind) = some (earlier, later) := by
  induction before with
  | nil => rw [List.nil_append, firstDescent?_cons_cons, if_pos descent]
  | cons a before ih =>
    cases before with
    | nil =>
      obtain ⟨ascent, rest⟩ := List.isChain_cons_cons.mp chain
      rw [List.singleton_append, firstDescent?_cons_cons, if_neg ascent]
      exact ih rest
    | cons b before =>
      obtain ⟨ascent, rest⟩ := List.isChain_cons_cons.mp chain
      rw [List.cons_append, List.cons_append, firstDescent?_cons_cons, if_neg ascent]
      exact ih rest

private theorem ascends_iff {before behind : List Binary64} {earlier later : Binary64}
    (finite : ∀ band ∈ before ++ earlier :: later :: behind, band.isFinite) :
    ((before ++ [earlier]).IsChain fun a b => ¬ b ≤ a) ↔ (before ++ [earlier]).Pairwise (· < ·) := by
  refine isChain_iff_pairwise fun band member => finite band ?_
  simp only [List.mem_append, List.mem_cons] at member ⊢
  tauto

theorem refuses_of_ofList (refused : ofList bands = .error error) : Refuses bands error := by
  unfold ofList at refused
  split at refused
  next empty =>
    cases refused
    exact empty ▸ .noBands
  next =>
    split at refused
    next band found =>
      cases refused
      obtain ⟨infinite, before, behind, rfl, finite⟩ := List.find?_eq_some_iff_append.mp found
      exact .bandNotFinite before band behind (by simpa using finite) (by simpa using infinite)
    next none =>
      split at refused
      next earlier later found =>
        cases refused
        obtain ⟨descent, before, behind, rfl, chain⟩ := exists_of_firstDescent? found
        have finite : ∀ band ∈ before ++ earlier :: later :: behind, band.isFinite := by
          simpa only [List.find?_eq_none, Bool.not_eq_true', Bool.not_eq_false] using none
        exact .bandsNotAscending before earlier later behind finite ((ascends_iff finite).mp chain)
          descent
      next => cases refused

theorem ofList_of_refuses (refuses : Refuses bands error) : ofList bands = .error error := by
  cases refuses with
  | noBands => rfl
  | bandNotFinite before band behind finite infinite =>
    have found : (before ++ band :: behind).find? (fun band => !band.isFinite) = some band :=
      List.find?_eq_some_iff_append.mpr
        ⟨by simpa using infinite, before, behind, rfl, by simpa using finite⟩
    rw [ofList, dif_neg (by simp), found]
  | bandsNotAscending before earlier later behind finite ascending descent =>
    have none : (before ++ earlier :: later :: behind).find? (fun band => !band.isFinite) = none := by
      simpa only [List.find?_eq_none, Bool.not_eq_true', Bool.not_eq_false] using finite
    have found := firstDescent?_append before behind ((ascends_iff finite).mpr ascending) descent
    rw [ofList, dif_neg (by simp), none]
    simp only [found]

theorem ofList_eq_error_iff : ofList bands = .error error ↔ Refuses bands error :=
  ⟨refuses_of_ofList, ofList_of_refuses⟩

theorem exists_ofList_iff (bands : List Binary64) :
    (∃ axis, ofList bands = .ok axis) ↔
      bands ≠ [] ∧ (∀ band ∈ bands, band.isFinite) ∧ bands.Pairwise (· < ·) := by
  constructor
  · rintro ⟨axis, valid⟩
    refine ⟨?_, isFinite_of_ofList valid, pairwise_of_ofList valid⟩
    rintro rfl
    cases valid
  · rintro ⟨nonempty, finite, ascending⟩
    refine exists_ofList nonempty ?_ ?_
    · simpa using finite
    · exact (firstDescent?_eq_none_iff bands).mpr ((isChain_iff_pairwise finite).mpr ascending)

theorem createWith_eq (options : StoreOptions) (identifier : Int32) (bands : List Binary64) :
    Store.createWith options identifier bands = (ofList bands).map fun axis =>
      ⟨⟨identifier, axis, options.interpolation, #[], #[], #[]⟩,
        [.storeCreated identifier axis.size]⟩ := by
  rw [Store.createWith]
  cases ofList bands with
  | error error => rfl
  | ok axis => rfl

theorem createWith_eq_error_iff {options : StoreOptions} {identifier : Int32} :
    Store.createWith options identifier bands = .error error ↔ ofList bands = .error error := by
  rw [createWith_eq]
  cases ofList bands <;> simp [Except.map]

theorem events_of_createWith {options : StoreOptions} {identifier : Int32} {created : Logged Store}
    (made : Store.createWith options identifier bands = .ok created) :
    ofList bands = .ok created.value.axis ∧
      created.events = [.storeCreated identifier bands.length] := by
  rw [createWith_eq] at made
  cases bandAxis : ofList bands with
  | error error =>
    rw [bandAxis] at made
    cases made
  | ok axis =>
    rw [bandAxis] at made
    cases made
    refine ⟨rfl, ?_⟩
    rw [← size_of_ofList bandAxis]

theorem run_makeWith_of_refuses (refuses : Refuses bands error) (options : StoreOptions)
    (identifier : Int32) (reports : List Event) :
    (Store.makeWith options identifier bands).run.run reports = (.error error, reports) := by
  rw [Store.run_makeWith, createWith_eq_error_iff.mpr (ofList_of_refuses refuses)]
  rfl

theorem reports_of_makeWith {options : StoreOptions} {identifier : Int32} {reports : List Event}
    {store : Store}
    (stored : ((Store.makeWith options identifier bands).run.run reports).1 = .ok store) :
    ((Store.makeWith options identifier bands).run.run reports).2 =
      reports ++ [.storeCreated identifier bands.length] := by
  rw [Store.run_makeWith] at stored ⊢
  cases made : Store.createWith options identifier bands with
  | error error =>
    rw [made] at stored
    cases stored
  | ok created => exact congrArg (reports ++ ·) (events_of_createWith made).2

/-- Bands are an axis, with exactly these bands, if and only if there are any, all of them are
finite and each is below all that follow it; so bands of one value never stand in one axis. Other
bands are refused for the one reason that `Refuses` gives, by the axis and by a store with any
options. Made in steps, a store is reported if it is made, and a refusal reports nothing. -/
theorem ofList_decides (bands : List Binary64) :
    ((∃ axis, ofList bands = .ok axis) ↔
      bands ≠ [] ∧ (∀ band ∈ bands, band.isFinite) ∧ bands.Pairwise (· < ·)) ∧
      (∀ axis, ofList bands = .ok axis → axis.toList = bands) ∧
      (∀ error, ofList bands = .error error ↔ Refuses bands error) ∧
      (∀ (i j : Nat) (less : i < j) (inside : j < bands.length), bands[i].sameValue bands[j] →
        ∃ error, ofList bands = .error error) ∧
      ∀ options identifier,
        (∀ error, Store.createWith options identifier bands = .error error ↔ Refuses bands error) ∧
        (∀ error, Store.create identifier bands = .error error ↔ Refuses bands error) ∧
        (∀ created, Store.createWith options identifier bands = .ok created →
          ofList bands = .ok created.value.axis ∧
            created.events = [.storeCreated identifier bands.length]) ∧
        ∀ reports : List Event,
          let outcome := (Store.makeWith options identifier bands).run.run reports
          outcome = Store.made reports (Store.createWith options identifier bands) ∧
            (∀ error, Refuses bands error → outcome = (.error error, reports)) ∧
            ∀ store, outcome.1 = .ok store →
              outcome.2 = reports ++ [.storeCreated identifier bands.length] := by
  refine ⟨exists_ofList_iff bands, fun axis valid => ?_, fun error => ofList_eq_error_iff,
    fun i j less inside same => ?_, fun options identifier => ⟨fun error => ?_, fun error => ?_,
      fun created => events_of_createWith, fun reports =>
        ⟨Store.run_makeWith options identifier bands reports, fun error refuses =>
          run_makeWith_of_refuses refuses options identifier reports,
          fun store => reports_of_makeWith⟩⟩⟩
  · rw [toList, (eq_of_ofList valid).1]
  · cases bandAxis : ofList bands with
    | error error => exact ⟨error, rfl⟩
    | ok axis =>
      have apart := List.pairwise_iff_getElem.mp (pairwise_of_ofList bandAxis) i j (by omega) inside less
      simp only [Binary64.sameValue, Bool.and_eq_true, beq_iff_eq] at same
      exact absurd same.2 apart.2.ne
  · rw [createWith_eq_error_iff, ofList_eq_error_iff]
  · rw [Store.create, createWith_eq_error_iff, ofList_eq_error_iff]

theorem ofList_decides_zeros :
    ofList [-0, 0] = .error (.bandsNotAscending (-0) 0) ∧
      ofList [0, -0] = .error (.bandsNotAscending 0 (-0)) ∧
      Store.create 1 [200, 100, .nan] = .error (.bandNotFinite .nan) ∧
      (Store.makeWith {} 1 [200, 100, .nan]).run.run [.message "start"] =
        (.error (.bandNotFinite .nan), [.message "start"]) ∧
      ∃ axis, ofList [-0, 100] = .ok axis ∧ axis.toList = [-0, 100] := by
  have zeros : ∀ band ∈ ([-0, 0] : List Binary64), band.isFinite := by decide +kernel
  have undefined : Refuses [200, 100, .nan] (.bandNotFinite .nan) :=
    .bandNotFinite [200, 100] .nan [] (by decide +kernel) (by decide)
  obtain ⟨-, refused, -, steps⟩ := (ofList_decides [200, 100, .nan]).2.2.2.2 {} 1
  refine ⟨((ofList_decides _).2.2.1 _).mpr ?_, ((ofList_decides _).2.2.1 _).mpr ?_,
    (refused _).mpr undefined, (steps [.message "start"]).2.1 _ undefined, ?_⟩
  · exact .bandsNotAscending [] (-0) 0 [] zeros (List.pairwise_singleton _ _) (by decide +kernel)
  · exact .bandsNotAscending [] 0 (-0) [] (by decide +kernel) (List.pairwise_singleton _ _)
      (by decide +kernel)
  · obtain ⟨accepts, keeps, -⟩ := ofList_decides [-0, 100]
    obtain ⟨axis, valid⟩ := accepts.mpr ⟨by simp, by decide +kernel, by decide +kernel⟩
    exact ⟨axis, valid, keeps axis valid⟩

end BandAxis

end Directivity
