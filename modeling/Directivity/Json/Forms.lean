import Directivity.Interpolation
import Directivity.Json.Codec
import Directivity.Pattern
import Directivity.Receiver
import Directivity.Record
import Directivity.Spectrum

set_option autoImplicit false
set_option relaxedAutoImplicit false

namespace Directivity

instance : JsonForm Angle where
  encode format angle := format.object [("radian", format.number angle.radians)]
  decode? format value := do
    let [radians] ← format.fields? ["radian"] value | none
    return ⟨← format.number? radians⟩

instance : JsonForm Omnidirectional where
  encode format _ := format.object []
  decode? format value := do
    let _ ← format.fields? [] value
    return {}

instance : JsonForm Record where
  encode format record := format.object
    [("theta", format.number record.direction.elevation),
      ("phi", format.number record.direction.azimuth),
      ("attenuation", format.list (record.attenuation.toList.map format.number))]
  decode? format value := do
    let [elevation, azimuth, attenuation] ←
      format.fields? ["theta", "phi", "attenuation"] value | none
    return ⟨⟨← format.number? elevation, ← format.number? azimuth⟩,
      (← (← format.list? attenuation).mapM format.number?).toArray⟩

instance : JsonForm Interpolation where
  encode format
    | .nearest => format.text "Nearest"
    | .bilinear => format.text "Bilinear"
  decode? format value := do
    match ← format.choice? ["Nearest", "Bilinear"] value with
    | "Nearest" => some .nearest
    | "Bilinear" => some .bilinear
    | _ => none

instance : JsonForm StoreOptions where
  encode format options :=
    format.object [("interpolation", JsonForm.encode format options.interpolation)]
  decode? format value := do
    let [interpolation] ← format.fields? ["interpolation"] value | none
    return ⟨← JsonForm.decode? format interpolation⟩

instance : JsonForm SpectrumSelection where
  encode format selection := format.object
    [("type_vehicle", format.text selection.vehicle),
      ("reference", format.text selection.reference),
      ("running_condition", format.int32 selection.runningCondition),
      ("source_height", format.text selection.sourceHeight),
      ("spectre_ver", format.int32 selection.version),
      ("freq_id", format.int32 selection.frequency)]
  decode? format value := do
    let [vehicle, reference, condition, height, version, frequency] ←
      format.fields? ["type_vehicle", "reference", "running_condition", "source_height",
        "spectre_ver", "freq_id"] value | none
    return ⟨← format.text? vehicle, ← format.text? reference, ← format.int32? condition,
      ← format.text? height, ← format.int32? version, ← format.int32? frequency⟩

instance : JsonForm PointResult where
  encode format result := format.object
    [("receiver_record_row", format.word result.row), ("cell_id", format.word result.cell),
      ("receiver_level", format.number result.level)]
  decode? format value := do
    let [row, cell, level] ←
      format.fields? ["receiver_record_row", "cell_id", "receiver_level"] value | none
    return ⟨← format.word? row, ← format.word? cell, ← format.number? level⟩

instance : JsonForm TriangleResult where
  encode format result := format.object
    [("nodes", format.list (result.nodes.toList.map format.word)),
      ("levels", format.list (result.levels.toList.map format.number)),
      ("triangle_id", format.word result.triangle)]
  decode? format value := do
    let [nodes, levels, triangle] ← format.fields? ["nodes", "levels", "triangle_id"] value | none
    return ⟨← Vertices.ofList? (← (← format.list? nodes).mapM format.word?),
      ← Vertices.ofList? (← (← format.list? levels).mapM format.number?),
      ← format.word? triangle⟩

end Directivity
