import Directivity.Json.Format
import Mathlib.Data.List.Basic

set_option autoImplicit false
set_option relaxedAutoImplicit false

namespace Directivity

theorem mapM_map_of_forall {α β γ : Type} {read? : β → Option γ} {form : α → β} {value : α → γ}
    {items : List α} (each : ∀ item ∈ items, read? (form item) = some (value item)) :
    (items.map form).mapM read? = some (items.map value) := by
  induction items with
  | nil => rfl
  | cons item items ih =>
    obtain ⟨first, others⟩ := List.forall_mem_cons.mp each
    rw [List.map_cons, List.mapM_cons, first, ih others]
    rfl

theorem forall_of_mapM {α β : Type} {read? : α → Option β} {good : β → Prop}
    (each : ∀ value item, read? value = some item → good item) {values : List α} {items : List β}
    (read : values.mapM read? = some items) : ∀ item ∈ items, good item := by
  induction values generalizing items with
  | nil =>
    cases read
    simp
  | cons value values ih =>
    simp only [List.mapM_cons, Option.bind_eq_bind, Option.bind_eq_some_iff] at read
    obtain ⟨item, first, others, rest, ⟨⟩⟩ := read
    exact List.forall_mem_cons.mpr ⟨each value item first, ih rest⟩

section Members

variable {κ σ : Type} [BEq κ] {members : List (κ × σ)}

theorem onlyMember?_of_filter {name : κ} {member : κ × σ}
    (only : members.filter (fun other => other.1 == name) = [member]) :
    onlyMember? members name = some member.2 := by
  unfold onlyMember?
  split
  next other found =>
    cases only.symm.trans found
    rfl
  next others => exact (others member.1 member.2 only).elim

variable [LawfulBEq κ]

theorem filter_of_mem (distinct : (members.map Prod.fst).Nodup) {member : κ × σ}
    (inside : member ∈ members) :
    members.filter (fun other => other.1 == member.1) = [member] := by
  induction members with
  | nil => cases inside
  | cons first members ih =>
    obtain ⟨new, distinct⟩ := List.nodup_cons.mp distinct
    rcases List.mem_cons.mp inside with rfl | later
    · have none : members.filter (fun other => other.1 == member.1) = [] := by
        refine List.filter_eq_nil_iff.mpr fun other stands same => new ?_
        exact eq_of_beq same ▸ List.mem_map_of_mem stands
      rw [List.filter_cons_of_pos (by simp), none]
    · have other : first.1 ≠ member.1 := fun same => new (same ▸ List.mem_map_of_mem later)
      rw [List.filter_cons_of_neg (by simpa using other), ih distinct later]

theorem mapM_onlyMember? (distinct : (members.map Prod.fst).Nodup) :
    (members.map Prod.fst).mapM (onlyMember? members) = some (members.map Prod.snd) :=
  mapM_map_of_forall fun _ inside => onlyMember?_of_filter (filter_of_mem distinct inside)

end Members

namespace JsonFormat

variable {σ : Type} {format : JsonFormat σ}

/-- The values of data whose numbers are finite. -/
inductive Written (format : JsonFormat σ) : σ → Prop
  | number (x : Binary64) (finite : x.isFinite) : Written format (format.number x)
  | int32 (i : Int32) : Written format (format.int32 i)
  | word (w : UInt64) : Written format (format.word w)
  | text (t : String) : Written format (format.text t)
  | list (items : List σ) (all : ∀ item ∈ items, Written format item) :
    Written format (format.list items)
  | object (members : List (String × σ)) (all : ∀ member ∈ members, Written format member.2) :
    Written format (format.object members)

/-- What forms rely on. JSON that was printed is parsed as the value that it was printed for, and
each kind of data is got back from its values, of numbers the finite ones; there is no JSON for
others. A choice is written as its name. Fields are looked for by name: each has to be there, and
only once, and what else there is does not matter. -/
structure Lawful (format : JsonFormat σ) : Prop where
  parse?_print : ∀ value, format.Written value → format.parse? (format.print value) = some value
  number?_number : ∀ x : Binary64, x.isFinite → format.number? (format.number x) = some x
  isFinite_of_number? : ∀ value x, format.number? value = some x → x.isFinite
  int32?_int32 : ∀ i, format.int32? (format.int32 i) = some i
  word?_word : ∀ w, format.word? (format.word w) = some w
  text?_text : ∀ t, format.text? (format.text t) = some t
  choice?_text : ∀ names, ∀ name ∈ names, format.choice? names (format.text name) = some name
  list?_list : ∀ items, format.list? (format.list items) = some items
  fields?_object : ∀ (names : List String) (members : List (String × σ)), names.Nodup →
    format.fields? names (format.object members) = names.mapM (onlyMember? members)

namespace Lawful

variable (lawful : format.Lawful)
include lawful

theorem fields?_object_self {names : List String} {fields : List (String × σ)}
    (named : fields.map Prod.fst = names) (distinct : names.Nodup) :
    format.fields? names (format.object fields) = some (fields.map Prod.snd) := by
  subst named
  rw [lawful.fields?_object _ _ distinct, mapM_onlyMember? distinct]

theorem mapM_number? {numbers : List Binary64} (finite : ∀ x ∈ numbers, x.isFinite) :
    (numbers.map format.number).mapM format.number? = some numbers := by
  rw [mapM_map_of_forall fun x member => lawful.number?_number x (finite x member), List.map_id']

theorem mapM_word? (words : List UInt64) :
    (words.map format.word).mapM format.word? = some words := by
  rw [mapM_map_of_forall fun w _ => lawful.word?_word w, List.map_id']

theorem isFinite_of_mapM_number? {values : List σ} {numbers : List Binary64}
    (read : values.mapM format.number? = some numbers) : ∀ x ∈ numbers, x.isFinite :=
  forall_of_mapM lawful.isFinite_of_number? read

end Lawful

theorem written_list_map {α : Type} {form : α → σ} {items : List α}
    (each : ∀ item ∈ items, format.Written (form item)) :
    format.Written (format.list (items.map form)) :=
  .list _ (List.forall_mem_map.mpr each)

end JsonFormat

end Directivity
