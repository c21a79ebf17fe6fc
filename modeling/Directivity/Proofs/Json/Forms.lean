import Directivity.Json.Forms
import Directivity.Proofs.Json.Codec

/-!
The data of the library go through JSON texts unchanged, in every format that has the laws of one.

With all its numbers finite, a datum comes back as it was. Only finite numbers are read, so a datum
that was read from any text at all has a text of its own, which is read as the same datum again.
-/

set_option autoImplicit false
set_option relaxedAutoImplicit false

namespace Directivity

namespace JsonFormat

variable {σ : Type} {format : JsonFormat σ}

/-- The form of a type tells its data apart, where all the numbers of a datum are finite; and data
that are read have only such. -/
structure Faithful (format : JsonFormat σ) (α : Type) [JsonForm α] (numbers : α → List Binary64) :
    Prop where
  written : ∀ a : α, (∀ x ∈ numbers a, x.isFinite) → format.Written (JsonForm.encode format a)
  decode?_encode : ∀ a : α, (∀ x ∈ numbers a, x.isFinite) →
    JsonForm.decode? format (JsonForm.encode format a) = some a
  finite : ∀ (value : σ) (a : α), JsonForm.decode? format value = some a → ∀ x ∈ numbers a, x.isFinite

/-- What is written for a datum whose numbers are finite is read as that datum. What is written for
a datum that was read from some text is read as that datum too; so a text that was written once for
what was read is written again for what is read of it. -/
structure RoundTrips (format : JsonFormat σ) (α : Type) [JsonForm α] (numbers : α → List Binary64) :
    Prop where
  written : ∀ a : α, (∀ x ∈ numbers a, x.isFinite) → format.read? (format.write a) = some a
  kept : ∀ (text : String) (a : α), format.read? text = some a →
    format.read? (format.write a) = some a
  settles : ∀ text again, format.reprint? α text = some again → format.reprint? α again = some again

theorem Faithful.roundTrips {α : Type} [JsonForm α] {numbers : α → List Binary64}
    (lawful : format.Lawful) (faithful : format.Faithful α numbers) :
    format.RoundTrips α numbers := by
  have written : ∀ a : α, (∀ x ∈ numbers a, x.isFinite) →
      format.read? (format.write a) = some a := by
    intro a finite
    rw [read?, write, lawful.parse?_print _ (faithful.written a finite), Option.bind_some,
      faithful.decode?_encode a finite]
  have kept : ∀ (text : String) (a : α), format.read? text = some a →
      format.read? (format.write a) = some a := by
    intro text a read
    obtain ⟨value, -, decoded⟩ := Option.bind_eq_some_iff.mp read
    exact written a (faithful.finite value a decoded)
  refine ⟨written, kept, fun text again once => ?_⟩
  obtain ⟨a, read, rfl⟩ := Option.map_eq_some_iff.mp once
  rw [reprint?, kept text a read, Option.map_some]

section Fields

variable {α : Type} {found : Option (List σ)} {a : α}

theorem bind_one_eq_some_iff {read? : σ → Option α} :
    (found.bind fun fields => match fields with
      | [field] => read? field
      | _ => none) = some a ↔ ∃ field, found = some [field] ∧ read? field = some a := by
  rw [Option.bind_eq_some_iff]
  constructor
  · rintro ⟨fields, named, read⟩
    split at read
    · exact ⟨_, named, read⟩
    · cases read
  · rintro ⟨field, named, read⟩
    exact ⟨_, named, read⟩

theorem bind_three_eq_some_iff {read? : σ → σ → σ → Option α} :
    (found.bind fun fields => match fields with
      | [first, second, third] => read? first second third
      | _ => none) = some a ↔
      ∃ first second third, found = some [first, second, third] ∧
        read? first second third = some a := by
  rw [Option.bind_eq_some_iff]
  constructor
  · rintro ⟨fields, named, read⟩
    split at read
    · exact ⟨_, _, _, named, read⟩
    · cases read
  · rintro ⟨first, second, third, named, read⟩
    exact ⟨_, named, read⟩

end Fields

open JsonForm

variable (lawful : format.Lawful)

theorem decode?_angle {value : σ} {angle : Angle} : decode? format value = some angle ↔
    ∃ radians, format.fields? ["radian"] value = some [radians] ∧
      format.number? radians = some angle.radians := by
  refine bind_one_eq_some_iff.trans ?_
  simp only [Option.bind_eq_bind, Option.bind_eq_some_iff]
  constructor
  · rintro ⟨_, named, _, radians, ⟨⟩⟩
    exact ⟨_, named, radians⟩
  · rintro ⟨_, named, radians⟩
    exact ⟨_, named, _, radians, rfl⟩

include lawful in
theorem faithful_angle : format.Faithful Angle fun angle => [angle.radians] where
  written angle finite := .object _ (by simpa using .number _ (finite angle.radians (by simp)))
  decode?_encode angle finite :=
    decode?_angle.mpr ⟨_, lawful.fields?_object_self rfl (by simp),
      lawful.number?_number _ (finite angle.radians (by simp))⟩
  finite value angle read := by
    obtain ⟨radians, -, number⟩ := decode?_angle.mp read
    simpa using lawful.isFinite_of_number? _ _ number

include lawful in
theorem faithful_omnidirectional : format.Faithful Omnidirectional fun _ => [] where
  written _ _ := .object _ (by simp)
  decode?_encode source _ := by
    have fields : format.fields? [] (encode format source) = some [] :=
      lawful.fields?_object_self rfl List.nodup_nil
    simp [decode?, fields]
  finite := by simp

theorem decode?_record {value : σ} {record : Record} : decode? format value = some record ↔
    ∃ elevation azimuth attenuation levels,
      format.fields? ["theta", "phi", "attenuation"] value =
          some [elevation, azimuth, attenuation] ∧
        format.number? elevation = some record.direction.elevation ∧
        format.number? azimuth = some record.direction.azimuth ∧
        format.list? attenuation = some levels ∧
        levels.mapM format.number? = some record.attenuation.toList := by
  refine bind_three_eq_some_iff.trans ?_
  simp only [Option.bind_eq_bind, Option.bind_eq_some_iff]
  constructor
  · rintro ⟨_, _, _, named, _, elevation, _, azimuth, _, attenuation, _, levels, ⟨⟩⟩
    exact ⟨_, _, _, _, named, elevation, azimuth, attenuation, levels⟩
  · rintro ⟨_, _, _, _, named, elevation, azimuth, attenuation, levels⟩
    exact ⟨_, _, _, named, _, elevation, _, azimuth, _, attenuation, _, levels, rfl⟩

include lawful in
theorem faithful_record : format.Faithful Record fun record =>
    record.direction.elevation :: record.direction.azimuth :: record.attenuation.toList where
  written record finite := by
    obtain ⟨elevation, finite⟩ := List.forall_mem_cons.mp finite
    obtain ⟨azimuth, finite⟩ := List.forall_mem_cons.mp finite
    have attenuation : format.Written (format.list (record.attenuation.toList.map format.number)) :=
      written_list_map fun x member => .number x (finite x member)
    refine .object _ ?_
    simpa using ⟨.number _ elevation, .number _ azimuth, attenuation⟩
  decode?_encode record finite := by
    obtain ⟨elevation, finite⟩ := List.forall_mem_cons.mp finite
    obtain ⟨azimuth, finite⟩ := List.forall_mem_cons.mp finite
    exact decode?_record.mpr ⟨_, _, _, _, lawful.fields?_object_self rfl (by simp),
      lawful.number?_number _ elevation, lawful.number?_number _ azimuth, lawful.list?_list _,
      lawful.mapM_number? finite⟩
  finite value record read := by
    obtain ⟨_, _, _, _, -, elevation, azimuth, -, levels⟩ := decode?_record.mp read
    refine List.forall_mem_cons.mpr ⟨lawful.isFinite_of_number? _ _ elevation, ?_⟩
    exact List.forall_mem_cons.mpr
      ⟨lawful.isFinite_of_number? _ _ azimuth, lawful.isFinite_of_mapM_number? levels⟩

include lawful in
theorem faithful_interpolation : format.Faithful Interpolation fun _ => [] where
  written method _ := by cases method <;> exact .text _
  decode?_encode method _ := by
    cases method with
    | nearest =>
      have name := lawful.choice?_text ["Nearest", "Bilinear"] "Nearest" (by simp)
      simp [encode, decode?, name]
    | bilinear =>
      have name := lawful.choice?_text ["Nearest", "Bilinear"] "Bilinear" (by simp)
      simp [encode, decode?, name]
  finite := by simp

theorem decode?_storeOptions {value : σ} {options : StoreOptions} :
    decode? format value = some options ↔
      ∃ method, format.fields? ["interpolation"] value = some [method] ∧
        decode? format method = some options.interpolation := by
  refine bind_one_eq_some_iff.trans ?_
  constructor
  · rintro ⟨_, named, read⟩
    obtain ⟨_, method, ⟨⟩⟩ := Option.bind_eq_some_iff.mp read
    exact ⟨_, named, method⟩
  · rintro ⟨_, named, method⟩
    exact ⟨_, named, Option.bind_eq_some_iff.mpr ⟨_, method, rfl⟩⟩

include lawful in
theorem faithful_storeOptions : format.Faithful StoreOptions fun _ => [] where
  written options _ := by
    have method := (faithful_interpolation lawful).written options.interpolation (by simp)
    exact .object _ (by simpa using method)
  decode?_encode options _ :=
    decode?_storeOptions.mpr ⟨_, lawful.fields?_object_self rfl (by simp),
      (faithful_interpolation lawful).decode?_encode options.interpolation (by simp)⟩
  finite := by simp

theorem decode?_spectrumSelection {value : σ} {selection : SpectrumSelection} :
    decode? format value = some selection ↔
      ∃ vehicle reference condition height version frequency,
        format.fields? ["type_vehicle", "reference", "running_condition", "source_height",
            "spectre_ver", "freq_id"] value =
          some [vehicle, reference, condition, height, version, frequency] ∧
        format.text? vehicle = some selection.vehicle ∧
        format.text? reference = some selection.reference ∧
        format.int32? condition = some selection.runningCondition ∧
        format.text? height = some selection.sourceHeight ∧
        format.int32? version = some selection.version ∧
        format.int32? frequency = some selection.frequency := by
  simp only [decode?, Option.bind_eq_bind, Option.bind_eq_some_iff]
  constructor
  · rintro ⟨fields, named, read⟩
    split at read
    · simp only [Option.bind_eq_some_iff] at read
      obtain ⟨_, readVehicle, _, readReference, _, readCondition, _, readHeight, _, readVersion,
        _, readFrequency, ⟨⟩⟩ := read
      exact ⟨_, _, _, _, _, _, named, readVehicle, readReference, readCondition, readHeight,
        readVersion, readFrequency⟩
    · cases read
  · rintro ⟨vehicle, reference, condition, height, version, frequency, named, readVehicle,
      readReference, readCondition, readHeight, readVersion, readFrequency⟩
    exact ⟨_, named, by
      simp [readVehicle, readReference, readCondition, readHeight, readVersion, readFrequency]⟩

include lawful in
theorem faithful_spectrumSelection : format.Faithful SpectrumSelection fun _ => [] where
  written selection _ := .object _ (by simp [Written.text, Written.int32])
  decode?_encode selection _ :=
    decode?_spectrumSelection.mpr ⟨_, _, _, _, _, _, lawful.fields?_object_self rfl (by simp),
      lawful.text?_text _, lawful.text?_text _, lawful.int32?_int32 _, lawful.text?_text _,
      lawful.int32?_int32 _, lawful.int32?_int32 _⟩
  finite := by simp

theorem decode?_pointResult {value : σ} {result : PointResult} :
    decode? format value = some result ↔
      ∃ row cell level,
        format.fields? ["receiver_record_row", "cell_id", "receiver_level"] value =
            some [row, cell, level] ∧
          format.word? row = some result.row ∧ format.word? cell = some result.cell ∧
          format.number? level = some result.level := by
  refine bind_three_eq_some_iff.trans ?_
  simp only [Option.bind_eq_bind, Option.bind_eq_some_iff]
  constructor
  · rintro ⟨_, _, _, named, _, row, _, cell, _, level, ⟨⟩⟩
    exact ⟨_, _, _, named, row, cell, level⟩
  · rintro ⟨_, _, _, named, row, cell, level⟩
    exact ⟨_, _, _, named, _, row, _, cell, _, level, rfl⟩

include lawful in
theorem faithful_pointResult : format.Faithful PointResult fun result => [result.level] where
  written result finite := by
    have level : format.Written (format.number result.level) := .number _ (finite _ (by simp))
    exact .object _ (by simp [Written.word, level])
  decode?_encode result finite :=
    decode?_pointResult.mpr ⟨_, _, _, lawful.fields?_object_self rfl (by simp),
      lawful.word?_word _, lawful.word?_word _,
      lawful.number?_number _ (finite result.level (by simp))⟩
  finite value result read := by
    obtain ⟨_, _, _, -, -, -, level⟩ := decode?_pointResult.mp read
    simpa using lawful.isFinite_of_number? _ _ level

theorem ofList?_eq_some_iff {α : Type} {items : List α} {vertices : Vertices α} :
    Vertices.ofList? items = some vertices ↔ items = vertices.toList := by
  constructor
  · intro read
    unfold Vertices.ofList? at read
    split at read
    · cases read
      rfl
    · cases read
  · rintro rfl
    rfl

theorem decode?_triangleResult {value : σ} {result : TriangleResult} :
    decode? format value = some result ↔ ∃ nodes levels triangle words numbers,
      format.fields? ["nodes", "levels", "triangle_id"] value = some [nodes, levels, triangle] ∧
        format.list? nodes = some words ∧
        words.mapM format.word? = some result.nodes.toList ∧
        format.list? levels = some numbers ∧
        numbers.mapM format.number? = some result.levels.toList ∧
        format.word? triangle = some result.triangle := by
  refine bind_three_eq_some_iff.trans ?_
  simp only [Option.bind_eq_bind, Option.bind_eq_some_iff, ofList?_eq_some_iff]
  constructor
  · rintro ⟨_, _, _, named, _, nodes, _, words, _, rfl, _, levels, _, numbers, _, rfl, _, triangle,
      ⟨⟩⟩
    exact ⟨_, _, _, _, _, named, nodes, words, levels, numbers, triangle⟩
  · rintro ⟨_, _, _, _, _, named, nodes, words, levels, numbers, triangle⟩
    exact ⟨_, _, _, named, _, nodes, _, words, _, rfl, _, levels, _, numbers, _, rfl, _, triangle,
      rfl⟩

include lawful in
theorem faithful_triangleResult :
    format.Faithful TriangleResult fun result => result.levels.toList where
  written result finite := by
    have nodes : format.Written (format.list (result.nodes.toList.map format.word)) :=
      written_list_map fun w _ => .word w
    have levels : format.Written (format.list (result.levels.toList.map format.number)) :=
      written_list_map fun x member => .number x (finite x member)
    exact .object _ (by simp [nodes, levels, Written.word])
  decode?_encode result finite :=
    decode?_triangleResult.mpr ⟨_, _, _, _, _, lawful.fields?_object_self rfl (by simp),
      lawful.list?_list _, lawful.mapM_word? _, lawful.list?_list _, lawful.mapM_number? finite,
      lawful.word?_word _⟩
  finite value result read := by
    obtain ⟨_, _, _, _, _, -, -, -, -, levels, -⟩ := decode?_triangleResult.mp read
    exact lawful.isFinite_of_mapM_number? levels

/-- Whatever writes and reads the JSON, all data of the library go through their texts unchanged. -/
theorem forms_round_trip {σ : Type} {format : JsonFormat σ} (lawful : format.Lawful) :
    format.RoundTrips Angle (fun angle => [angle.radians]) ∧
      format.RoundTrips Omnidirectional (fun _ => []) ∧
      format.RoundTrips Record (fun record =>
        record.direction.elevation :: record.direction.azimuth :: record.attenuation.toList) ∧
      format.RoundTrips Interpolation (fun _ => []) ∧
      format.RoundTrips StoreOptions (fun _ => []) ∧
      format.RoundTrips SpectrumSelection (fun _ => []) ∧
      format.RoundTrips PointResult (fun result => [result.level]) ∧
      format.RoundTrips TriangleResult (fun result => result.levels.toList) :=
  ⟨(faithful_angle lawful).roundTrips lawful, (faithful_omnidirectional lawful).roundTrips lawful,
    (faithful_record lawful).roundTrips lawful, (faithful_interpolation lawful).roundTrips lawful,
    (faithful_storeOptions lawful).roundTrips lawful,
    (faithful_spectrumSelection lawful).roundTrips lawful,
    (faithful_pointResult lawful).roundTrips lawful,
    (faithful_triangleResult lawful).roundTrips lawful⟩

theorem forms_round_trip_extremes :
    Json.format.Lawful ∧
      read? Json.format
          (write Json.format (Record.mk ⟨⟨0x8000000000000000⟩, ⟨1⟩⟩ #[⟨0x3FD3333333333334⟩])) =
        some (Record.mk ⟨⟨0x8000000000000000⟩, ⟨1⟩⟩ #[⟨0x3FD3333333333334⟩]) ∧
      (∃ selection : SpectrumSelection, selection.vehicle = "\x07😀" ∧
        read? Json.format "[\"\\u0007\\ud83d\\ude00\", \"a\", -5, \"\", 2, 3]" =
          some selection ∧
        read? Json.format (write Json.format selection) = some selection) ∧
      reprint? Json.format Angle "\x7b\"unit\": [], \"radian\": 5\x7d" =
        some "\x7b\"radian\":5.0\x7d" ∧
      reprint? Json.format Angle "\x7b\"radian\":5.0\x7d" = some "\x7b\"radian\":5.0\x7d" := by
  have lawful := Json.lawful_format
  obtain ⟨angle, -, record, -, -, selection, -⟩ := forms_round_trip lawful
  have text : read? Json.format "[\"\\u0007\\ud83d\\ude00\", \"a\", -5, \"\", 2, 3]" =
      some (⟨"\x07😀", "a", -5, "", 2, 3⟩ : SpectrumSelection) := by decide +kernel
  have finite : ∀ x ∈ [(⟨0x8000000000000000⟩ : Binary64), ⟨1⟩, ⟨0x3FD3333333333334⟩], x.isFinite := by
    decide
  have integer : reprint? Json.format Angle "\x7b\"unit\": [], \"radian\": 5\x7d" =
      some "\x7b\"radian\":5.0\x7d" := by decide +kernel
  exact ⟨lawful, record.written _ finite, ⟨_, rfl, text, selection.kept _ _ text⟩, integer,
    angle.settles _ _ integer⟩

end JsonFormat

end Directivity
