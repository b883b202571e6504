import Placard.Json.Decode
import Placard.Template.Basic

/-!
# Overrides

A child shows the values of its parent except where it has values of its own.
Those places are flagged: a property of a layer, or a layer as a whole. Flags
are kept in a table of children, each with a table of its layers, and where
there is no flag there is no entry, so what is flagged determines the tables.

A property belongs to one of two classes, and for each class a toggle says
whether what is written to a parent reaches its children at all. The sides of
the canvas belong to neither: a child has its own.
-/

namespace Placard

/-- What a property says of a layer. -/
inductive PropertyClass where
  | style
  | position
deriving DecidableEq

/-- The class of a property of a layer, or of the canvas under its key. -/
def PropertyClass.of? (layer : String) (p : Property) : Option PropertyClass :=
  if layer = canvasKey then
    match p with
    | .width | .height => none
    | _ => some style
  else
    match p with
    | .x | .y | .gravity | .order | .width | .height => some position
    | _ => some style

/-- The name of a class, as it is answered with. -/
def PropertyClass.token : PropertyClass → String
  | style => "style"
  | position => "position"

/-- Which classes of properties are inherited. -/
structure Toggles where
  style : Bool
  position : Bool
deriving DecidableEq

namespace Toggles

/-- Both classes are inherited. -/
def all : Toggles := ⟨true, true⟩

/-- Neither class is inherited. -/
def none : Toggles := ⟨false, false⟩

/-- Whether the properties of a class are inherited. -/
def enabled (t : Toggles) : PropertyClass → Bool
  | .style => t.style
  | .position => t.position

/-- Whether a property of a layer is inherited: it has a class, and that is. -/
def inherits (t : Toggles) (layer : String) (p : Property) : Bool :=
  (PropertyClass.of? layer p).any t.enabled

open Json in
/-- The toggles in JSON. -/
def toJson (t : Toggles) : Json :=
  .object [("styleProps", .bool t.style), ("positionProps", .bool t.position)]

open Json in
/-- The toggles as they are written; both have to be given. -/
def decode : Decoder Toggles :=
  Fields.decode <|
    Toggles.mk <$> .required "styleProps" decodeBool
      <*> .required "positionProps" decodeBool

end Toggles

/-- The flags of one layer of one child. -/
structure LayerFlags where
  /-- The layer as a whole is the child's own, or deleted there. -/
  whole : Bool
  properties : PropertySet
deriving DecidableEq

namespace LayerFlags

/-- Neither the layer nor any property of it is flagged. -/
def empty : LayerFlags := ⟨false, ∅⟩

/-- Whether nothing is flagged. -/
def isEmpty (f : LayerFlags) : Bool :=
  !f.whole && f.properties.isEmpty

/-- How many flags there are, the one for the whole layer among them. -/
def count (f : LayerFlags) : Nat :=
  f.properties.size + f.whole.toNat

end LayerFlags

/-- The flags of all children, by child and layer. -/
abbrev Overrides := Table (Table LayerFlags)

namespace Overrides

/-- The flags of a child by its layers. -/
def layersOf (o : Overrides) (child : String) : Table LayerFlags :=
  (o.get? child).getD ∅

/-- The flags of a layer of a child, none of which need be set. -/
def flags (o : Overrides) (child layer : String) : LayerFlags :=
  ((o.layersOf child).get? layer).getD .empty

/-- One layer with other flags, of which there is at least one. -/
def setFlags (o : Overrides) (child layer : String) (f : LayerFlags) :
    Overrides :=
  o.insert child ((o.layersOf child).insert layer f)

/-- The layers of a child, if there are any. -/
def nonempty? (layers : Table LayerFlags) : Option (Table LayerFlags) :=
  if layers.isEmpty then none else some layers

/-- Whether a property has a flag of its own. -/
def isMarked (o : Overrides) (child layer : String) (p : Property) : Bool :=
  (o.flags child layer).properties.contains p

/-- Flags a property of a layer as the child's own. -/
def mark (o : Overrides) (child layer : String) (p : Property) : Overrides :=
  let f := o.flags child layer
  o.setFlags child layer { f with properties := f.properties.insert p }

/-- Flags a whole layer as the child's own. -/
def markLayer (o : Overrides) (child layer : String) : Overrides :=
  o.setFlags child layer { o.flags child layer with whole := true }

/-- A property no longer flagged, and no entry left without a flag. -/
def unmark (o : Overrides) (child layer : String) (p : Property) : Overrides :=
  o.alter child fun layers? => layers?.bind fun layers =>
    nonempty? <| layers.alter layer fun f? =>
      (f?.map fun f => { f with properties := f.properties.erase p }).filter
        fun f => !f.isEmpty

/-- Removes the flag of a property; the answer is whether there was one. -/
def clear (o : Overrides) (child layer : String) (p : Property) :
    Bool × Overrides :=
  (o.isMarked child layer p, o.unmark child layer p)

/-- Takes all flags of a layer away, and the child's entry if it has no
other. -/
def clearLayer (o : Overrides) (child layer : String) : Overrides :=
  o.alter child fun layers? => layers?.bind fun layers =>
    nonempty? (layers.erase layer)

/-- Takes all flags of a child away. -/
def clearChild (o : Overrides) (child : String) : Overrides :=
  o.erase child

/-- Whether a whole layer is the child's own. -/
def isLayerOverridden (o : Overrides) (child layer : String) : Bool :=
  (o.flags child layer).whole

/-- Whether the child has its own value: the property is flagged, or its layer
is. -/
def isOverridden (o : Overrides) (child layer : String) (p : Property) : Bool :=
  o.isLayerOverridden child layer || o.isMarked child layer p

/-- The properties of a layer with a flag of their own, in the order of
declaration. -/
def overriddenProperties (o : Overrides) (child layer : String) :
    List Property :=
  (o.flags child layer).properties.members

/-- How many flags a child has. -/
def entryCount (o : Overrides) (child : String) : Nat :=
  ((o.layersOf child).values.map LayerFlags.count).foldr (· + ·) 0

end Overrides

/-! ## JSON -/

/-- A set of properties in JSON, by their names in the order of declaration. -/
def PropertySet.toJson (s : PropertySet) : Json :=
  .array (s.members.map fun p => .string p.name)

open Json in
/-- A set of properties from their names, which may come in any order and more
than once. -/
def PropertySet.decode : Decoder PropertySet := fun v => do
  let properties ← decodeArray
    (decodeNamed Property.all Property.name Source.isNull) v
  pure (.ofPred fun p => p ∈ properties)

/-- The flags of a layer in JSON. -/
def LayerFlags.toJson (f : LayerFlags) : Json :=
  .object [("wholeLayer", .bool f.whole), ("properties", f.properties.toJson)]

open Json in
/-- The flags of a layer as they are written; what is left out is not
flagged. -/
def LayerFlags.decode : Decoder LayerFlags :=
  Fields.decode <|
    LayerFlags.mk <$> .withDefault "wholeLayer" false decodeBool
      <*> .withDefault "properties" ∅ PropertySet.decode

/-- All flags in JSON, by child and by layer. -/
def Overrides.toJson (o : Overrides) : Json :=
  .object [("entries", .ofTable (Json.ofTable LayerFlags.toJson) o)]

open Json in
/-- All flags as they are written. -/
def Overrides.decode : Decoder Overrides :=
  Fields.decode <|
    id <$> .required "entries" (decodeTable (decodeTable LayerFlags.decode))

end Placard
