import Placard.Template.Layer
import Placard.Template.Size
import Placard.Template.Value

/-!
# Templates

A template is a canvas with a background and an ordered list of layers. Its
parts are addressed by the key of a layer, or `_general` for the canvas, and a
property. Where a property is stored is said once, by a slot; reading and
writing are derived from it, so they cannot disagree.
-/

namespace Placard

/-- A canvas and the layers over it. -/
structure Template where
  id : String
  width : UInt32
  height : UInt32
  background : Color
  layers : List Layer
deriving DecidableEq

/-- A template without layers, its background white. -/
def Template.ofCanvas (id : String) (width height : UInt32) : Template where
  id := id
  width := width
  height := height
  background := .white
  layers := []

/-- The key that addresses the canvas. No layer may have it. -/
def canvasKey : String := "_general"

/-! ## Where properties are stored -/

/-- Where a text layer keeps a property, if it has it. -/
def TextLayer.slot? : Property → Option (Slot TextLayer)
  | .x => some ⟨.number, (·.x), fun v t => { t with x := v }⟩
  | .y => some ⟨.number, (·.y), fun v t => { t with y := v }⟩
  | .gravity => some ⟨.gravity, (·.gravity), fun v t => { t with gravity := v }⟩
  | .order => some ⟨.rank, (·.order), fun v t => { t with order := v }⟩
  | .displayName =>
    some ⟨.text, (·.displayName), fun v t => { t with displayName := v }⟩
  | .fontSize =>
    some ⟨.fontSize, (·.fontSize), fun v t => { t with fontSize := v }⟩
  | .color => some ⟨.color, (·.color), fun v t => { t with color := v }⟩
  | .font => some ⟨.text, (·.font), fun v t => { t with font := v }⟩
  | .wrap => some ⟨.flag, (·.wrap), fun v t => { t with wrap := v }⟩
  | .wrapWidth =>
    some ⟨.optionalNumber, (·.wrapWidth), fun v t => { t with wrapWidth := v }⟩
  | .noOverflow =>
    some ⟨.flag, (·.flags.noOverflow),
      fun v t => { t with flags := { t.flags with noOverflow := v } }⟩
  | .disallowOverflow =>
    some ⟨.flag, (·.flags.disallowOverflow),
      fun v t => { t with flags := { t.flags with disallowOverflow := v } }⟩
  | .fieldName =>
    some ⟨.text, (·.fieldName), fun v t => { t with fieldName := v }⟩
  | .metadataKey =>
    some ⟨.optionalText, (·.metadataKey), fun v t => { t with
      metadataKey := v }⟩
  | .defaultValue =>
    some ⟨.text, (·.defaultValue), fun v t => { t with defaultValue := v }⟩
  | .lead => some ⟨.text, (·.lead), fun v t => { t with lead := v }⟩
  | .trail => some ⟨.text, (·.trail), fun v t => { t with trail := v }⟩
  | .widthMultiplier =>
    some ⟨.optionalNumber, (·.widthMultiplier),
      fun v t => { t with widthMultiplier := v }⟩
  | .width | .height | .assetId | .shown | .isMainSubject | .backgroundColor =>
    none

/-- Where an image layer keeps a property, if it has it. -/
def ImageLayer.slot? : Property → Option (Slot ImageLayer)
  | .x => some ⟨.number, (·.x), fun v i => { i with x := v }⟩
  | .y => some ⟨.number, (·.y), fun v i => { i with y := v }⟩
  | .gravity => some ⟨.gravity, (·.gravity), fun v i => { i with gravity := v }⟩
  | .order => some ⟨.rank, (·.order), fun v i => { i with order := v }⟩
  | .displayName =>
    some ⟨.text, (·.displayName), fun v i => { i with displayName := v }⟩
  | .width => some ⟨.number, (·.width), fun v i => { i with width := v }⟩
  | .height => some ⟨.number, (·.height), fun v i => { i with height := v }⟩
  | .assetId =>
    some ⟨.optionalText, (·.assetId), fun v i => { i with assetId := v }⟩
  | .shown => some ⟨.flag, (·.shown), fun v i => { i with shown := v }⟩
  | .isMainSubject =>
    some ⟨.flag, (·.isMainSubject), fun v i => { i with isMainSubject := v }⟩
  | .fontSize | .color | .font | .wrap | .wrapWidth | .noOverflow
  | .disallowOverflow | .fieldName | .metadataKey | .defaultValue | .lead
  | .trail | .widthMultiplier | .backgroundColor => none

/-- Where a template keeps a property of its canvas, if that has it. -/
def Template.slot? : Property → Option (Slot Template)
  | .width => some ⟨.side, (·.width), fun v t => { t with width := v }⟩
  | .height => some ⟨.side, (·.height), fun v t => { t with height := v }⟩
  | .backgroundColor =>
    some ⟨.color, (·.background), fun v t => { t with background := v }⟩
  | _ => none

/-- The value of a property of a layer, if the layer has it. -/
def LayerBody.get? (b : LayerBody) (p : Property) : Option Value :=
  match b with
  | .text t => (TextLayer.slot? p).map fun s => s.read t
  | .image i => (ImageLayer.slot? p).map fun s => s.read i

/-- A layer with a value written to a property. The key is for the message. -/
def LayerBody.set (b : LayerBody) (key : String) (p : Property) (v : Value) :
    Except WriteError LayerBody :=
  match b with
  | .text t =>
    match TextLayer.slot? p with
    | some s => (s.write p v t).map .text
    | none => .error (.unknown key p)
  | .image i =>
    match ImageLayer.slot? p with
    | some s => (s.write p v i).map .image
    | none => .error (.unknown key p)

/-! ## Layers by their keys -/

/-- The first layer of a list with the given key. -/
def findLayer? (key : String) : List Layer → Option Layer
  | [] => none
  | l :: rest => if l.key = key then some l else findLayer? key rest

/-- The list with the body of the first layer of the given key replaced. -/
def replaceBody (key : String) (body : LayerBody) : List Layer → List Layer
  | [] => []
  | l :: rest =>
    if l.key = key then { l with body := body } :: rest
    else l :: replaceBody key body rest

/-- The layers without the first one of a key. -/
def removeLayer (key : String) : List Layer → List Layer
  | [] => []
  | l :: rest => if l.key = key then rest else l :: removeLayer key rest

namespace Template

/-- The size of the canvas. -/
def canvas (t : Template) : Size :=
  ⟨t.width, t.height⟩

/-- The first layer of a key, if there is one. -/
def layer? (t : Template) (key : String) : Option Layer :=
  findLayer? key t.layers

/-- Whether there is a layer of a key. -/
def hasLayer (t : Template) (key : String) : Bool :=
  (t.layer? key).isSome

/-- The place of the first layer with the given key. -/
def layerIndex? (t : Template) (key : String) : Option Nat :=
  t.layers.findIdx? fun l => l.key = key

/-- The text layers with their keys, in declaration order. -/
def textLayers (t : Template) : List (String × TextLayer) :=
  t.layers.filterMap fun l => l.text?.map fun text => (l.key, text)

/-- The text layer of a key, if the first layer of that key is one. -/
def textLayer? (t : Template) (key : String) : Option TextLayer :=
  (t.layer? key).bind Layer.text?

/-- Layers with a place in the order stand before those without, by that place;
layers of one place, and those without, keep the order of declaration. -/
def drawnBefore (a b : Layer) : Bool :=
  match a.order, b.order with
  | some m, some n => m ≤ n
  | some _, none => true
  | none, some _ => false
  | none, none => true

/-- The layers in the order in which they are drawn, those without a rank behind
the others. -/
def drawOrder (t : Template) : List Layer :=
  t.layers.mergeSort drawnBefore

/-- The size that percentages of the font size refer to: that of the first text
layer, if it is a number of pixels. -/
def baseFontSize? (t : Template) : Option Float :=
  match t.textLayers with
  | [] => none
  | (_, text) :: _ =>
    match text.fontSize with
    | .px size => some size
    | .percent _ => none

/-- The value of a property of a layer, or of the canvas under its key. -/
def get? (t : Template) (key : String) (p : Property) : Option Value :=
  if key = canvasKey then (slot? p).map fun s => s.read t
  else (t.layer? key).bind fun l => l.body.get? p

/-- The template with a value written to a property of a layer or of the
canvas. -/
def set (t : Template) (key : String) (p : Property) (v : Value) :
    Except WriteError Template :=
  if key = canvasKey then
    match slot? p with
    | some s => s.write p v t
    | none => .error (.unknown key p)
  else
    match t.layer? key with
    | some l => do
      let body ← l.body.set key p v
      pure { t with layers := replaceBody key body t.layers }
    | none => .error (.unknown key p)

end Template

end Placard
