import Placard.Json.Decode
import Placard.Template.Basic

/-!
# Templates as JSON

Every part of a template is written with all of its members, in the order of
declaration, and read with defaults for most of them. A layer is one object that
holds its key, its kind, and the members that the kind has.
-/

namespace Placard

open Json

/-- What cannot be read is refused with the reader's own message. -/
def BadValue.refuse {α : Type} (r : Except BadValue α) : Except DecodeError α :=
  r.mapError fun e => .refused e.message

/-! ## Scalars -/

/-- A colour in JSON, as a text. -/
def Color.toJson (c : Color) : Json :=
  .string c.text

/-- A colour from a text that names one. -/
def Color.decode : Decoder Color := fun v => do
  let s ← decodeString v
  BadValue.refuse (Color.ofText? s)

/-- A font size in JSON: pixels are a number, a percentage is a text. -/
def FontSize.toJson : FontSize → Json
  | .px size => .real size
  | .percent share => .string (FontSize.percent share).text

/-- A font size from a positive number of pixels, or from a text that names
one. -/
def FontSize.decode : Decoder FontSize
  | .number n =>
    let x := n.toFloat
    if x.isFinite && 0 < x then .ok (.px x)
    else .error (.refused (BadValue.fontSize (Decimal.plain.render x)).message)
  | .string s => BadValue.refuse (FontSize.ofText? s)
  | _ => .error .mismatch

/-- A gravity in JSON, by its name. -/
def Gravity.toJson (g : Gravity) : Json :=
  .string g.token

/-- A gravity from its name. -/
def Gravity.decode : Decoder Gravity :=
  decodeNamed Gravity.all Gravity.token Source.isEmpty

/-- A role in JSON, by its name. -/
def Role.toJson (r : Role) : Json :=
  .string r.token

/-- A role from its name. -/
def Role.decode : Decoder Role :=
  decodeNamed Role.all Role.token Source.isEmpty

/-- A rank in the drawing order in JSON. -/
def rankToJson (n : Int32) : Json :=
  .int n.toInt

/-- A size in JSON. -/
def Size.toJson (s : Size) : Json :=
  .object [("width", .int s.width.toNat), ("height", .int s.height.toNat)]

/-- A size as it is written; both sides have to be given. -/
def Size.decode : Decoder Size :=
  Fields.decode <|
    Size.mk <$> .required "width" decodeUInt32
      <*> .required "height" decodeUInt32

/-! ## Layers -/

/-- The flags of a text in JSON. -/
def OverflowFlags.toJson (f : OverflowFlags) : Json :=
  .object [("noOverflow", .bool f.noOverflow),
    ("disallowOverflow", .bool f.disallowOverflow)]

/-- The flags of a text as they are written; what is left out is not set. -/
def OverflowFlags.decode : Decoder OverflowFlags :=
  Fields.decode <|
    OverflowFlags.mk <$> .withDefault "noOverflow" false decodeBool
      <*> .withDefault "disallowOverflow" false decodeBool

/-- A calculation in JSON. -/
def Calculation.toJson (c : Calculation) : Json :=
  .object [("formula", .string c.formula), ("dependsOn", .string c.dependsOn)]

/-- A calculation as it is written. Its formula is any text. -/
def Calculation.decode : Decoder Calculation :=
  Fields.decode <|
    Calculation.mk <$> .required "formula" decodeString
      <*> .required "dependsOn" decodeString

/-- The members of a text layer, besides its key and kind. -/
def TextLayer.members (t : TextLayer) : List (String × Json) :=
  [("x", .real t.x), ("y", .real t.y), ("gravity", t.gravity.toJson),
   ("fontSize", t.fontSize.toJson), ("color", t.color.toJson),
   ("font", .string t.font), ("wrap", .bool t.wrap),
   ("wrapWidth", .optional .real t.wrapWidth), ("flags", t.flags.toJson),
   ("fieldName", .string t.fieldName),
   ("metadataKey", .optional .string t.metadataKey),
   ("defaultValue", .string t.defaultValue), ("prefix", .string t.lead),
   ("suffix", .string t.trail),
   ("widthMultiplier", .optional .real t.widthMultiplier),
   ("calculation", .optional Calculation.toJson t.calculation),
   ("order", .optional rankToJson t.order),
   ("displayName", .string t.displayName),
   ("role", .optional Role.toJson t.role)]

/-- The members of a text layer in the order of declaration. Only the size of
its font has to be given. -/
def TextLayer.fields : Fields TextLayer :=
  TextLayer.mk <$> .withDefault "x" 0 decodeFloat
    <*> .withDefault "y" 0 decodeFloat
    <*> .withDefault "gravity" default Gravity.decode
    <*> .required "fontSize" FontSize.decode
    <*> .withDefault "color" .black Color.decode
    <*> .withDefault "font" "Arial" decodeString
    <*> .withDefault "wrap" false decodeBool
    <*> .withDefault "wrapWidth" none (decodeOptional decodeFloat)
    <*> .withDefault "flags" ⟨false, false⟩ OverflowFlags.decode
    <*> .withDefault "fieldName" "" decodeString
    <*> .withDefault "metadataKey" none (decodeOptional decodeString)
    <*> .withDefault "defaultValue" "" decodeString
    <*> .withDefault "prefix" "" decodeString
    <*> .withDefault "suffix" "" decodeString
    <*> .withDefault "widthMultiplier" none (decodeOptional decodeFloat)
    <*> .withDefault "calculation" none (decodeOptional Calculation.decode)
    <*> .withDefault "order" none (decodeOptional decodeInt32)
    <*> .withDefault "displayName" "" decodeString
    <*> .withDefault "role" none (decodeOptional Role.decode)

/-- The members of an image layer, besides its key and kind. -/
def ImageLayer.members (i : ImageLayer) : List (String × Json) :=
  [("x", .real i.x), ("y", .real i.y), ("width", .real i.width),
   ("height", .real i.height), ("gravity", i.gravity.toJson),
   ("assetId", .optional .string i.assetId), ("show", .bool i.shown),
   ("isMainSubject", .bool i.isMainSubject),
   ("order", .optional rankToJson i.order),
   ("displayName", .string i.displayName),
   ("role", .optional Role.toJson i.role)]

/-- The members of an image layer in the order of declaration. Only its sides
have to be given. -/
def ImageLayer.fields : Fields ImageLayer :=
  ImageLayer.mk <$> .withDefault "x" 0 decodeFloat
    <*> .withDefault "y" 0 decodeFloat
    <*> .required "width" decodeFloat
    <*> .required "height" decodeFloat
    <*> .withDefault "gravity" default Gravity.decode
    <*> .withDefault "assetId" none (decodeOptional decodeString)
    <*> .withDefault "show" true decodeBool
    <*> .withDefault "isMainSubject" false decodeBool
    <*> .withDefault "order" none (decodeOptional decodeInt32)
    <*> .withDefault "displayName" "" decodeString
    <*> .withDefault "role" none (decodeOptional Role.decode)

/-- What a layer object says it is. -/
inductive LayerKind where
  | text
  | image
deriving DecidableEq

/-- The kinds in the order of declaration. -/
def LayerKind.all : List LayerKind := [text, image]

/-- The name of a kind in JSON. -/
def LayerKind.token : LayerKind → String
  | text => "text"
  | image => "image"

/-- A kind is named, or given by its place among the kinds. -/
def LayerKind.decode : Decoder LayerKind
  | .string s => decodeNamed all token Source.isNull (.string s)
  | .number (.int 0) => .ok .text
  | .number (.int 1) => .ok .image
  | _ => .error .mismatch

/-- What kind a layer is of. -/
def LayerBody.kind : LayerBody → LayerKind
  | .text _ => .text
  | .image _ => .image

/-- A layer in JSON: its key and its kind before what is in it. -/
def Layer.toJson (l : Layer) : Json :=
  let members := match l.body with
    | .text t => t.members
    | .image i => i.members
  .object (("key", .string l.key) ::
    ("kind", .string l.body.kind.token) :: members)

/-- A layer object: its key first, then its kind, then what the kind has. What
that is turns out only when all members are known, so every one must have a
value. -/
def Layer.decode : Decoder Layer
  | .object members behind? => do
    let key ← (Fields.required "key" decodeString).ofMembers members behind?
    let rest := members.filter fun m => m.1 != some "key"
    if (Source.membersToJson? rest).isNone then .error .mismatch
    else do
      let kind ← (Fields.required "kind" LayerKind.decode).ofMembers
        rest behind?
      let rest := rest.filter fun m => m.1 != some "kind"
      match kind with
      | .text => (TextLayer.fields.ofMembers rest behind?).map fun t =>
        ⟨key, .text t⟩
      | .image => (ImageLayer.fields.ofMembers rest behind?).map fun i =>
        ⟨key, .image i⟩
  | _ => .error .mismatch

/-! ## Templates -/

/-- A template in JSON. -/
def Template.toJson (t : Template) : Json :=
  .object [("id", .string t.id), ("width", .int t.width.toNat),
    ("height", .int t.height.toNat), ("backgroundColor", t.background.toJson),
    ("layers", .array (t.layers.map Layer.toJson))]

/-- A template as it is written; the colour of its canvas and its layers may be
left out. -/
def Template.decode : Decoder Template :=
  Fields.decode <|
    Template.mk <$> .required "id" decodeString
      <*> .required "width" decodeUInt32
      <*> .required "height" decodeUInt32
      <*> .withDefault "backgroundColor" .white Color.decode
      <*> .withDefault "layers" [] (decodeArray Layer.decode)

end Placard
