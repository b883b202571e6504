import Placard.Template.Scalars
import Placard.Template.Formula

/-!
# Layers

A layer is a text or a picture that is laid over the canvas. Its key names it
within its template; the rest depends on its kind.
-/

namespace Placard

open Text

/-- What a layer is for. -/
inductive Role where
  | logo
  | badge
  | headline
  | subject
deriving DecidableEq

namespace Role

/-- The roles in the order of declaration. -/
def all : List Role := [logo, badge, headline, subject]

/-- The name of a role in JSON. -/
def token : Role → String
  | logo => "logo"
  | badge => "badge"
  | headline => "headline"
  | subject => "subject"

end Role

/-- What is asked of the renderer for a text that is too long for its box. -/
structure OverflowFlags where
  noOverflow : Bool
  disallowOverflow : Bool
deriving DecidableEq, Inhabited

/-- A value derived from that of another layer. -/
structure Calculation where
  formula : String
  dependsOn : String
deriving DecidableEq, Inhabited

/-- The steps of a calculation, if its formula can be read. -/
def Calculation.steps? (c : Calculation) : Option (List Step) :=
  Formula.steps? c.formula

/-- A text over the canvas. Its content comes from a field, by the layer's own
name for it or, where that is blank, by the layer's key. -/
structure TextLayer where
  x : Float
  y : Float
  gravity : Gravity
  fontSize : FontSize
  color : Color
  font : String
  wrap : Bool
  wrapWidth : Option Float
  flags : OverflowFlags
  fieldName : String
  metadataKey : Option String
  defaultValue : String
  /-- The text in front of the content. -/
  lead : String
  /-- The text behind the content. -/
  trail : String
  widthMultiplier : Option Float
  calculation : Option Calculation
  order : Option Int32
  displayName : String
  role : Option Role
deriving DecidableEq, Inhabited

/-- A text layer of which only the field and the font size are chosen. -/
def TextLayer.ofField (fieldName : String) (fontSize : FontSize) :
    TextLayer where
  x := 0
  y := 0
  gravity := .northWest
  fontSize := fontSize
  color := .black
  font := "Arial"
  wrap := false
  wrapWidth := none
  flags := ⟨false, false⟩
  fieldName := fieldName
  metadataKey := none
  defaultValue := ""
  lead := ""
  trail := ""
  widthMultiplier := none
  calculation := none
  order := none
  displayName := ""
  role := none

/-- A picture over the canvas: the asset it names or, where it names none, the
asset that is being rendered. -/
structure ImageLayer where
  x : Float
  y : Float
  width : Float
  height : Float
  gravity : Gravity
  assetId : Option String
  shown : Bool
  isMainSubject : Bool
  order : Option Int32
  displayName : String
  role : Option Role
deriving DecidableEq, Inhabited

/-- An image layer of which only the size is chosen. -/
def ImageLayer.ofSize (width height : Float) : ImageLayer where
  x := 0
  y := 0
  width := width
  height := height
  gravity := .northWest
  assetId := none
  shown := true
  isMainSubject := false
  order := none
  displayName := ""
  role := none

/-- What is in a layer: a text or an image. -/
inductive LayerBody where
  | text (layer : TextLayer)
  | image (layer : ImageLayer)
deriving DecidableEq

/-- A layer, by the key under which it is found. -/
structure Layer where
  key : String
  body : LayerBody
deriving DecidableEq

/-- The place of the layer in the drawing order, where it is given one. -/
def Layer.order (l : Layer) : Option Int32 :=
  match l.body with
  | .text t => t.order
  | .image i => i.order

/-- The text that is in a layer, if it is one. -/
def Layer.text? (l : Layer) : Option TextLayer :=
  match l.body with
  | .text t => some t
  | .image _ => none

/-- The field that a text layer takes its content from. -/
def TextLayer.field (t : TextLayer) (key : String) : String :=
  if allBlank t.fieldName then key else t.fieldName

end Placard
