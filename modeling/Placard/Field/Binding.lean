import Placard.Field.Catalog
import Placard.Json.Decode

/-!
# Field bindings

What a field shows is a literal or, when it is bound, the metadata of the asset
under a key, with the literal to fall back on. Binding a field remembers the
literal it had, and unbinding gives that one back. A field that nothing has been
said about shows what the layer itself says.
-/

namespace Placard

/-- The content of one field. -/
structure Binding where
  fieldName : String
  currentLiteral : String
  isMetadataBound : Bool
  /-- Empty while the field is not bound. -/
  metadataKey : String
  savedLiteral : Option String
deriving DecidableEq

/-- Why the content of a field cannot be changed so. -/
inductive BindError where
  | unknownField (field : String)
  | notBindable (field : String)
  | malformedFormula (layer formula : String)
deriving DecidableEq

/-- The message of an error, as it is answered with. -/
def BindError.message : BindError → String
  | unknownField field => "Unknown field: " ++ field
  | notBindable field => "Field " ++ field ++ " cannot be bound to metadata"
  | malformedFormula layer formula =>
    "Layer " ++ layer ++ " has a malformed formula '" ++ formula ++ "'"

namespace Binding

/-- A field that shows a literal and is not bound. -/
def ofLiteral (fieldName literal : String) : Binding :=
  ⟨fieldName, literal, false, "", none⟩

/-- Whether the field takes its value from metadata: it is bound, and to a
key. -/
def looksUp (b : Binding) : Bool :=
  b.isMetadataBound && !b.metadataKey.isEmpty

/-- Whether the field is sure to have a value that is not empty. -/
def holdsValue (b : Binding) : Bool :=
  b.looksUp || !b.currentLiteral.isEmpty

/-- A field with a default, bound to a key if there is one that is not empty. -/
def ofDefault (fieldName literal : String) (key : Option String) : Binding :=
  match key.filter fun k => !k.isEmpty with
  | some k => ⟨fieldName, literal, true, k, none⟩
  | none => ofLiteral fieldName literal

/-- What a text layer says of its field. -/
def ofLayer (fieldName : String) (text : TextLayer) : Binding :=
  ofDefault fieldName text.defaultValue text.metadataKey

/-- The binding as a literal: the one that was remembered or, if there is none,
the default of the catalog. -/
def released (b : Binding) (field : String) (c : Catalog) : Binding :=
  if b.isMetadataBound then
    let literal := (b.savedLiteral.or (c.defaultFor? field)).getD ""
    { b with
      currentLiteral := literal
      isMetadataBound := false
      metadataKey := ""
      savedLiteral := none }
  else b

end Binding

/-- The content of fields by their names. -/
abbrev Bindings := Table Binding

namespace Bindings

/-- The fields of a catalog, each with what it says of them. -/
def ofCatalog (c : Catalog) : Bindings :=
  Table.ofList <| c.entries.map fun (field, info) =>
    (field, Binding.ofDefault field info.defaultValue info.metadataKey)

/-- The content of a field, empty where nothing has been said. -/
def getOrEmpty (bs : Bindings) (field : String) : Binding :=
  (bs.get? field).getD (Binding.ofLiteral field "")

/-- The field with a new literal. For a bound one this is what it falls back
on. -/
def setLiteral (bs : Bindings) (field value : String) : Bindings :=
  bs.insert field { bs.getOrEmpty field with currentLiteral := value }

/-- The field bound to a key of the metadata, with its literal remembered if it
was not bound before. The background cannot be bound. -/
def bindMetadata (bs : Bindings) (field key : String) :
    Except BindError Bindings :=
  if field = backgroundField then .error (.notBindable field)
  else
    let b := bs.getOrEmpty field
    let saved :=
      if b.isMetadataBound then b.savedLiteral else some b.currentLiteral
    .ok <| bs.insert field
      { b with
        isMetadataBound := true
        metadataKey := key
        savedLiteral := saved }

/-- Releases a field from the metadata that it is bound to. It has to be there,
bound or not. -/
def unbind (bs : Bindings) (field : String) (c : Catalog) :
    Except BindError Bindings :=
  match bs.get? field with
  | none => .error (.unknownField field)
  | some b => .ok (bs.insert field (b.released field c))

/-- The field of a text layer with the content that the layer gives it. -/
def reseed (bs : Bindings) (key : String) (text : TextLayer) : Bindings :=
  let field := text.field key
  bs.insert field (Binding.ofLayer field text)

/-- The content of a text layer: what has been said of its field or, if nothing
has, what the layer says. -/
def resolve (bs : Bindings) (key : String) (text : TextLayer) : Binding :=
  let field := text.field key
  (bs.get? field).getD (Binding.ofLayer field text)

end Bindings

open Json in
/-- A field in JSON. -/
def Binding.toJson (b : Binding) : Json :=
  .object [("fieldName", .string b.fieldName),
    ("currentLiteral", .string b.currentLiteral),
    ("isMetadataBound", .bool b.isMetadataBound),
    ("metadataKey", .string b.metadataKey),
    ("savedLiteralBeforeBinding", .optional .string b.savedLiteral)]

open Json in
/-- A field as it is written; a literal need not be remembered. -/
def Binding.decode : Decoder Binding :=
  Fields.decode <|
    Binding.mk <$> .required "fieldName" decodeString
      <*> .required "currentLiteral" decodeString
      <*> .required "isMetadataBound" decodeBool
      <*> .required "metadataKey" decodeString
      <*> .withDefault "savedLiteralBeforeBinding" none
      (decodeOptional decodeString)

open Json in
/-- All fields in JSON, by their names. -/
def Bindings.toJson (bs : Bindings) : Json :=
  .object [("fields", .ofTable Binding.toJson bs)]

open Json in
/-- All fields as they are written. -/
def Bindings.decode : Decoder Bindings :=
  Fields.decode <| id <$> .required "fields" (decodeTable Binding.decode)

end Placard
