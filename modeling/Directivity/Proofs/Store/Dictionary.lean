import Directivity.Proofs.Store.Neighbours
import Mathlib.Data.Finset.Card

/-!
A store as a dictionary that keeps what was put first.

Read by directions, a store that admits one record does what a dictionary does that puts an
attenuation where there is none. So records that are admitted one by one leave of every direction
the first record of the right length, and both arrangements list just these.
-/

set_option autoImplicit false
set_option relaxedAutoImplicit false

namespace Directivity

/-- Attenuations by directions. -/
def Dictionary : Type :=
  Direction → Option (Array Binary64)

namespace Dictionary

def empty : Dictionary :=
  fun _ => none

def putIfAbsent (bands : Nat) (dictionary : Dictionary) (record : Record) : Dictionary :=
  fun direction =>
    (dictionary direction).or
      (if record.attenuation.size = bands ∧ record.direction = direction then
        some record.attenuation
      else none)

def first? (bands : Nat) (records : List Record) (direction : Direction) : Option Record :=
  records.find? fun record =>
    decide (record.attenuation.size = bands ∧ record.direction = direction)

theorem foldl_putIfAbsent (bands : Nat) (dictionary : Dictionary) (records : List Record)
    (direction : Direction) :
    records.foldl (putIfAbsent bands) dictionary direction =
      (dictionary direction).or ((first? bands records direction).map Record.attenuation) := by
  induction records generalizing dictionary with
  | nil => simp [first?]
  | cons record records ih =>
    rw [List.foldl_cons, ih, putIfAbsent, Option.or_assoc]
    congr 1
    unfold first?
    by_cases first : record.attenuation.size = bands ∧ record.direction = direction
    · simp [first]
    · rw [if_neg first, List.find?_cons_of_neg (by simpa using first), Option.none_or]

theorem first?_eq_some_iff (bands : Nat) (records : List Record) (record : Record) :
    first? bands records record.direction = some record ↔
      (first? bands records record.direction).map Record.attenuation = some record.attenuation := by
  rw [Option.map_eq_some_iff]
  constructor
  · intro found
    exact ⟨record, found, rfl⟩
  · rintro ⟨other, found, same⟩
    have chosen := List.find?_some found
    rw [decide_eq_true_eq] at chosen
    obtain rfl : other = record := by
      cases other
      cases record
      exact congrArg₂ Record.mk chosen.2 same
    exact found

end Dictionary

namespace Store

variable {store : Store}

def contents (store : Store) : Dictionary :=
  fun direction => (store.find? direction).map Record.attenuation

theorem Arranged.contents_eq_some (arranged : store.Arranged) (distinct : store.directions.Nodup)
    (direction : Direction) (attenuation : Array Binary64) :
    store.contents direction = some attenuation ↔ ⟨direction, attenuation⟩ ∈ store.arena := by
  simp only [contents, Option.map_eq_some_iff, arranged.find?_eq_some distinct]
  constructor
  · rintro ⟨record, ⟨member, rfl⟩, rfl⟩
    exact member
  · intro member
    exact ⟨_, ⟨member, rfl⟩, rfl⟩

theorem Arranged.contents_eq_none (arranged : store.Arranged) (direction : Direction) :
    store.contents direction = none ↔ direction ∉ store.directions := by
  rw [contents, Option.map_eq_none_iff]
  constructor
  · intro none known
    obtain ⟨record, found, _⟩ := arranged.find?_of_mem known
    rw [found] at none
    cases none
  · exact arranged.find?_of_not_mem

theorem Arranged.contents_apply_insert (arranged : store.Arranged)
    (distinct : store.directions.Nodup) (record : Record) :
    (store.apply (.insert record)).contents =
      store.contents.putIfAbsent store.axis.size record := by
  have arranged' := arranged.apply (.insert record)
  have distinct' : (store.apply (.insert record)).directions.Nodup :=
    arranged.nodup_directions_apply distinct trivial
  funext direction
  rw [Dictionary.putIfAbsent]
  by_cases put : record.attenuation.size = store.axis.size ∧ record.direction = direction
  · obtain ⟨length, rfl⟩ := put
    rw [if_pos ⟨length, rfl⟩]
    by_cases known : record.direction ∈ store.directions
    · obtain ⟨old, found, _⟩ := arranged.find?_of_mem known
      rw [arranged.apply_insert, if_neg fun new => new.2 known, contents, found]
      rfl
    · rw [(arranged.contents_eq_none _).mpr known, Option.none_or,
        arranged'.contents_eq_some distinct', arranged.apply_insert, if_pos ⟨length, known⟩,
        Store.added, arena_addAt]
      exact Array.mem_push_self
  · rw [if_neg put, Option.or_none]
    -- A record that is added has the right length, so it is of another direction.
    have others : ∀ attenuation, (⟨direction, attenuation⟩ : Record) ∈
        (store.apply (.insert record)).arena ↔ ⟨direction, attenuation⟩ ∈ store.arena := by
      intro attenuation
      rw [arranged.apply_insert]
      split_ifs with new
      · rw [Store.added, arena_addAt, Array.mem_push]
        refine or_iff_left fun same => put ⟨new.1, ?_⟩
        rw [← same]
      · rfl
    refine Option.ext fun attenuation => ?_
    rw [arranged'.contents_eq_some distinct', arranged.contents_eq_some distinct, others]

theorem Arranged.contents_run_inserts (arranged : store.Arranged)
    (distinct : store.directions.Nodup) (records : List Record) :
    (store.run (records.map .insert)).contents =
      records.foldl (Dictionary.putIfAbsent store.axis.size) store.contents := by
  induction records generalizing store with
  | nil => rfl
  | cons record records ih =>
    have step := ih (arranged.apply (.insert record))
      (arranged.nodup_directions_apply distinct trivial)
    rw [(arranged.frame_apply (.insert record)).2.1,
      arranged.contents_apply_insert distinct record] at step
    exact step

theorem neverRepeats_inserts (store : Store) (records : List Record) :
    store.NeverRepeats (records.map .insert) := by
  induction records generalizing store with
  | nil => trivial
  | cons record records ih => exact ⟨trivial, ih _⟩

/-- Records that a new store is given one by one are put into it as into a dictionary: of every
direction the first record of the right length stays, the store has as many records as there are
such directions, and either arrangement lists just these records, in strictly ascending order. -/
theorem inserts_keep_first {options : StoreOptions} {identifier : Int32} {bands : List Binary64}
    {created : Logged Store} (valid : createWith options identifier bands = .ok created)
    (records : List Record) :
    let store := created.value.run (records.map .insert)
    let admissible := records.filter fun record => record.attenuation.size = bands.length
    store.contents = records.foldl (Dictionary.putIfAbsent bands.length) .empty ∧
      store.size = (admissible.map Record.direction).toFinset.card ∧
      ∀ arrangement,
        ((store.records arrangement).Pairwise fun a b =>
          arrangement.compare a.direction b.direction = .lt) ∧
        ∀ record, record ∈ store.records arrangement ↔
          Dictionary.first? bands.length records record.direction = some record := by
  intro store admissible
  have initial := arranged_of_createWith valid
  have arranged : store.Arranged := initial.run _
  obtain ⟨axis, bandAxis, empty⟩ := createWith_eq_ok valid
  have size : created.value.axis.size = bands.length := by
    rw [empty]
    exact BandAxis.size_of_ofList bandAxis
  have nothing : created.value.directions = [] := by simp [empty, directions]
  have fresh : created.value.directions.Nodup := by simp [nothing]
  have distinct : store.directions.Nodup :=
    initial.nodup_directions_run fresh (neverRepeats_inserts _ records)
  have contents : store.contents =
      records.foldl (Dictionary.putIfAbsent bands.length) .empty := by
    rw [← size]
    refine (initial.contents_run_inserts fresh records).trans ?_
    congr 1
    funext direction
    exact (initial.contents_eq_none direction).mpr (by simp [nothing])
  have first : ∀ direction, store.contents direction =
      (Dictionary.first? bands.length records direction).map Record.attenuation := by
    intro direction
    rw [contents, Dictionary.foldl_putIfAbsent]
    exact Option.none_or
  refine ⟨contents, ?_, fun arrangement => ⟨?_, fun record => ?_⟩⟩
  · rw [← length_directions, ← List.toFinset_card_of_nodup distinct]
    congr 1
    ext direction
    rw [List.mem_toFinset, List.mem_toFinset, ← not_iff_not, ← arranged.contents_eq_none, first,
      Option.map_eq_none_iff]
    simp [Dictionary.first?, admissible]
  · have strict := arranged.circle_ascending distinct arrangement
    rw [circle, List.pairwise_map] at strict
    exact strict.imp fun less => (arrangement.compare_eq_lt _ _).mpr less
  · rw [arranged.mem_records, ← arranged.contents_eq_some distinct record.direction, first,
      Dictionary.first?_eq_some_iff]

/-- Records towards both zeros and a NaN. The first has no value and is refused, and the last two
repeat a direction. -/
def repeatedRecords : List Record :=
  [⟨⟨⟨0⟩, ⟨0⟩⟩, #[]⟩, ⟨⟨⟨0⟩, ⟨0⟩⟩, #[⟨1⟩]⟩, ⟨⟨⟨0x8000000000000000⟩, ⟨0⟩⟩, #[⟨2⟩]⟩,
    ⟨⟨.nan, ⟨0⟩⟩, #[⟨3⟩]⟩, ⟨⟨⟨0⟩, ⟨0⟩⟩, #[⟨4⟩]⟩, ⟨⟨.nan, ⟨0⟩⟩, #[⟨5⟩]⟩]

theorem inserts_keep_first_repeatedRecords :
    ∃ created, createWith {} 1 [hundredHertz] = .ok created ∧
      (created.value.run (repeatedRecords.map .insert)).size = 3 ∧
      ∀ arrangement,
        ⟨⟨⟨0⟩, ⟨0⟩⟩, #[⟨1⟩]⟩ ∈
            (created.value.run (repeatedRecords.map .insert)).records arrangement ∧
          ⟨⟨⟨0x8000000000000000⟩, ⟨0⟩⟩, #[⟨2⟩]⟩ ∈
            (created.value.run (repeatedRecords.map .insert)).records arrangement ∧
          ⟨⟨.nan, ⟨0⟩⟩, #[⟨3⟩]⟩ ∈
            (created.value.run (repeatedRecords.map .insert)).records arrangement := by
  obtain ⟨created, valid⟩ : ∃ created, createWith {} 1 [hundredHertz] = .ok created := ⟨_, rfl⟩
  obtain ⟨_, size, listed⟩ := inserts_keep_first valid repeatedRecords
  refine ⟨created, valid, size.trans (by decide), fun arrangement => ⟨?_, ?_, ?_⟩⟩
  · exact ((listed arrangement).2 _).mpr rfl
  · exact ((listed arrangement).2 _).mpr rfl
  · exact ((listed arrangement).2 _).mpr rfl

end Store

end Directivity
