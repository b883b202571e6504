import Placard.Json.Value
import Placard.Template.Basic

/-!
# The catalog of fields

What the fields of a family are is derived from its parent template: for every
field what the first layer that has it says, and one entry for the background of
the canvas, unless a layer has a field of that name.
-/

namespace Placard

/-- What is known of a field. -/
structure FieldMeta where
  defaultValue : String
  metadataKey : Option String
  /-- The layer that declares the field; the background has none. -/
  layerKey : Option String
deriving DecidableEq

/-- The fields of a template. -/
abbrev Catalog := Table FieldMeta

/-- The field of the background of the canvas. -/
def backgroundField : String := "backgroundColor"

namespace Catalog

/-- The catalog with an entry for a field that has none. -/
def declare (c : Catalog) (field : String) (info : FieldMeta) : Catalog :=
  if c.contains field then c else c.insert field info

/-- The entry that a text layer makes. -/
def metaOf (key : String) (text : TextLayer) : FieldMeta where
  defaultValue := text.defaultValue
  metadataKey := text.metadataKey
  layerKey := some key

/-- The fields of a template, the background among them. -/
def ofTemplate (t : Template) : Catalog :=
  let layers := t.textLayers.foldl
    (fun c (key, text) => declare c (text.field key) (metaOf key text))
    Table.empty
  declare layers backgroundField ⟨t.background.text, none, none⟩

/-- The default of a field, if the catalog has the field. -/
def defaultFor? (c : Catalog) (field : String) : Option String :=
  (c.get? field).map FieldMeta.defaultValue

end Catalog

/-- What the catalog says of a field, in JSON. -/
def FieldMeta.toJson (m : FieldMeta) : Json :=
  .object [("defaultValue", .string m.defaultValue),
    ("metadataKey", .optional .string m.metadataKey),
    ("layerKey", .optional .string m.layerKey)]

end Placard
