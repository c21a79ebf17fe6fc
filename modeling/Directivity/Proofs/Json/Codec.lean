import Directivity.Json.Codec
import Directivity.Proofs.Json.Format
import Directivity.Proofs.Json.Reading

set_option autoImplicit false
set_option relaxedAutoImplicit false

namespace Directivity

namespace Json

theorem int?_ofInt (i : Int) : int? (ofInt i) = some i :=
  Numeral.int?_ofInt i

theorem word?_ofInt (word : UInt64) : word? (ofInt word.toNat) = some word := by
  have small : (word.toNat : Int) < UInt64.size := Int.ofNat_lt.mpr word.toNat_lt
  rw [word?, int?_ofInt, Option.bind_eq_bind, Option.bind_some,
    if_pos ⟨Int.natCast_nonneg _, small⟩, Int.toNat_natCast, UInt64.ofNat_toNat]

theorem int32?_ofInt (i : Int32) : int32? (ofInt i.toInt) = some i := by
  rw [int32?, int?_ofInt, Option.bind_eq_bind, Option.bind_some,
    if_pos ⟨i.minValue_le_toInt, i.toInt_le⟩, Int32.ofInt_toInt]

theorem onlyMember?_ofFields (fields : List (String × Json)) (name : String) :
    onlyMember? (fields.map fun field => (some field.1, field.2)) (some name) =
      onlyMember? fields name := by
  have same : (fields.map fun field => (some field.1, field.2)).filter
        (fun member => member.1 == some name) =
      (fields.filter fun field => field.1 == name).map fun field => (some field.1, field.2) :=
    List.filter_map
  rw [onlyMember?, same, onlyMember?]
  cases fields.filter fun field => field.1 == name with
  | nil => rfl
  | cons field others => cases others <;> rfl

theorem fields?_ofFields (names : List String) (fields : List (String × Json)) :
    fields? names (ofFields fields) = names.mapM (onlyMember? fields) := by
  have texts : (fields.map fun field => (some field.1, field.2)).all
      fun member => member.1.isSome := by simp
  refine (if_pos texts).trans ?_
  simp only [onlyMember?_ofFields]

theorem choice?_ofText {names : List String} {name : String} (known : name ∈ names) :
    choice? names (ofText name) = some name := by
  have found : names.contains name := List.contains_iff_mem.mpr known
  rw [choice?, ofText, name?, Option.filter_some, if_pos found]

variable {reading : Numeral → Option Binary64}

theorem WellFormed.of_written {value : Json} (written : (formatReading reading).Written value) :
    value.WellFormed := by
  induction written with
  | number x finite =>
    show (ofNumber x).WellFormed
    rw [ofNumber, if_pos finite]
    exact .number _ (Binary64.wellFormed_numeral (by decide) finite)
  | int32 i => exact .number _ (Numeral.wellFormed_ofInt _)
  | word w => exact .number _ (Numeral.wellFormed_ofInt _)
  | text t => exact .string _
  | list items _ ih => exact .array items ih
  | object members _ ih => exact .object _ (List.forall_mem_map.mpr ih)

theorem lawful_formatReading
    (reads : ∀ x : Binary64, x.isFinite → reading (layout.numeral x) = some x)
    (finite : ∀ numeral x, reading numeral = some x → x.isFinite) :
    (formatReading reading).Lawful where
  parse?_print _ written := (WellFormed.of_written written).ofString?_text
  number?_number x number := by
    show number? reading (ofNumber x) = some x
    rw [ofNumber, if_pos number]
    exact reads x number
  isFinite_of_number? value x read := by
    cases value with
    | number numeral => exact finite numeral x read
    | _ => cases read
  int32?_int32 := int32?_ofInt
  word?_word := word?_ofInt
  text?_text _ := rfl
  choice?_text _ _ := choice?_ofText
  list?_list _ := rfl
  fields?_object names members _ := fields?_ofFields names members

theorem lawful_format : format.Lawful := by
  refine lawful_formatReading (fun x finite => ?_) (fun numeral x read => ?_)
  · rw [Numeral.nearest?, Binary64.toBinary64_numeral layout finite, if_pos finite]
  · unfold Numeral.nearest? at read
    split_ifs at read with finite
    exact Option.some_inj.mp read ▸ finite

end Json

end Directivity
