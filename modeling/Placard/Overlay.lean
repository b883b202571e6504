import Placard.Field.Preview
import Placard.Wire.Plan

/-!
# Overlays

An overlay is the box of a layer in a rendered picture, as it is drawn on the
screen. The size of a text is estimated from the number of its characters; where
the text is known only after rendering, a placeholder stands for it. A picture
that was rendered for another canvas has no overlays, as they would be out of
place.
-/

namespace Placard

/-- What the estimate of a text's size depends on. -/
structure GeometrySettings where
  /-- The width of a character in font sizes. -/
  widthMultiplier : Float
  /-- The height of a line in font sizes. -/
  lineHeight : Float
  placeholderWidth : Float
  placeholderHeight : Float
deriving DecidableEq

/-- A rectangle of the screen, by its upper left corner and its sides. -/
structure Rect where
  left : Float
  top : Float
  width : Float
  height : Float
deriving DecidableEq

/-- The rectangle of a layer. -/
structure Overlay where
  layerKey : String
  rect : Rect
deriving DecidableEq

/-- How the rendered picture is drawn on the screen. -/
structure Viewport where
  scale : Float
  offsetX : Float
  offsetY : Float
deriving DecidableEq

/-- The picture is drawn as large as it is, in the corner of the screen. -/
def Viewport.identity : Viewport := ⟨1, 0, 0⟩

/-- A box of the canvas on the screen. -/
def Viewport.place (v : Viewport) (p : Placement) (canvas : Size)
    (width height : Float) : Rect where
  left := v.offsetX + p.left canvas width * v.scale
  top := v.offsetY + p.top canvas height * v.scale
  width := width * v.scale
  height := height * v.scale

namespace Overlay

/-- The width and height of a text, or nothing if there is none to show. A text
that is too long for the width it is wrapped at takes that width and as many
lines as it needs. -/
def textBox? (g : GeometrySettings) (text : TextLayer) (size : Float)
    (content? : Option String) : Option (Float × Float) :=
  match content? with
  | none => some (g.placeholderWidth, g.placeholderHeight)
  | some content =>
    if content.isEmpty then none
    else
      let multiplier := text.widthMultiplier.getD g.widthMultiplier
      let estimated := Float.ofNat content.length * size * multiplier
      let (width, lines) := match text.wrapLimit? with
        | none => (estimated, 1.0)
        | some limit =>
          if limit < estimated then (limit, (estimated / limit).ceil)
          else (estimated, 1.0)
      some (width, lines * size * g.lineHeight)

/-- The box of a layer on a canvas at a ratio, if it shows anything. -/
def project? (g : GeometrySettings) (t : Template) (bs : Bindings)
    (baseFontSize ratio : Float) (canvas : Size) (v : Viewport) (l : Layer) :
    Option Overlay :=
  match l.body with
  | .text text => do
    let (width, height) ← textBox? g text (text.fontSize.resolve baseFontSize)
      (bs.previewText? t l.key)
    let p := Placement.compute text.x text.y text.gravity ratio
    some ⟨l.key, v.place p canvas width height⟩
  | .image image =>
    if !image.shown then none
    else
      let p := Placement.compute image.x image.y image.gravity ratio
      some ⟨l.key, v.place p canvas (Float.ofInt (scaled image.width ratio))
        (Float.ofInt (scaled image.height ratio))⟩

/-- The boxes of all layers that show anything, in the order in which they are
drawn. -/
def projectAll (g : GeometrySettings) (settings : CompilerSettings)
    (t : Template) (bs : Bindings) (canvas rendered : Size) (v : Viewport) :
    List Overlay :=
  if rendered ≠ canvas then []
  else
    t.drawOrder.filterMap
      (project? g t bs (Plan.baseFontSize t settings)
        (scaleRatio canvas settings.baseWidth) canvas v)

end Overlay

/-- A rectangle in JSON. -/
def Rect.toJson (r : Rect) : Json :=
  .object [("left", .real r.left), ("top", .real r.top),
    ("width", .real r.width), ("height", .real r.height)]

/-- An overlay in JSON. -/
def Overlay.toJson (o : Overlay) : Json :=
  .object [("layerKey", .string o.layerKey), ("rect", o.rect.toJson)]

end Placard
