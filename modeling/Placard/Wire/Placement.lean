import Placard.Decimal.Layout
import Placard.Template.Basic

/-!
# Where layers go

Positions and the sizes of pictures are given for a canvas of a base width and
grow with the canvas that is rendered; font sizes do not. A layer is placed by a
point of the canvas and a whole number of pixels each way from it, which lead
away from an edge, and right and down from the middle.
-/

namespace Placard

open Decimal

/-- How much wider a canvas is than the base. -/
def scaleRatio (canvas : Size) (baseWidth : UInt32) : Float :=
  if baseWidth = 0 then 1.0
  else Float.ofNat canvas.width.toNat / Float.ofNat baseWidth.toNat

/-- A length on the canvas, in whole pixels. -/
def scaled (value ratio : Float) : Int :=
  toInt64 (value * ratio)

/-- An offset from a point of the canvas. -/
structure Placement where
  gravity : Gravity
  x : Int
  y : Int
deriving DecidableEq

namespace Placement

/-- The offset of a layer at a ratio. -/
def compute (x y : Float) (gravity : Gravity) (ratio : Float) : Placement :=
  ⟨gravity, scaled x ratio, scaled y ratio⟩

/-- The command that lays what is before it over the canvas. -/
def command (p : Placement) : String :=
  "fl_layer_apply,g_" ++ p.gravity.token ++ ",x_" ++ intText p.x ++ ",y_" ++
    intText p.y

/-- The left side of a box of a width on a canvas. The offset moves it away from
the side that the gravity names, or from the middle to the right. -/
def left (p : Placement) (canvas : Size) (width : Float) : Float :=
  let x := Float.ofInt p.x
  let full := Float.ofNat canvas.width.toNat
  match p.gravity with
  | .northWest | .west | .southWest => x
  | .north | .center | .south => (full - width) / 2.0 + x
  | .northEast | .east | .southEast => full - width - x

/-- The upper side of a box of a height on a canvas. The offset moves it away
from the side that the gravity names, or from the middle down. -/
def top (p : Placement) (canvas : Size) (height : Float) : Float :=
  let y := Float.ofInt p.y
  let full := Float.ofNat canvas.height.toNat
  match p.gravity with
  | .northWest | .north | .northEast => y
  | .west | .center | .east => (full - height) / 2.0 + y
  | .southWest | .south | .southEast => full - height - y

end Placement

end Placard
