import Placard.Decimal.Layout
import Placard.Decimal.Reader
import Placard.Text.Split

/-!
# Colours, font sizes and gravities

A colour is six or eight hexadecimal digits in lower case, which its type
guarantees: whatever is made of one, a command or a JSON text, can rely on it.
Three digits are short for six, each of them doubled. A font size is a number of
pixels or a percentage of the base size of its template, and percentages are
resolved to whole pixels. The gravity is the point of the canvas from which the
offset of a layer is measured: a corner, the middle of a side, or the centre.

Each of them is read from a text. Where a text names none, the cause keeps it as
it was given.
-/

namespace Placard

open Text Decimal

/-- A text that names no value of its kind. -/
inductive BadValue where
  | color (text : String)
  | fontSize (text : String)
  | gravity (text : String)
  | property (text : String)
  | formula (text : String)
deriving DecidableEq

/-- The message of an error, as it is answered with. -/
def BadValue.message : BadValue → String
  | .color text => "Invalid color: " ++ text
  | .fontSize text => "Invalid font size: " ++ text
  | .gravity text => "Unknown gravity: " ++ text
  | .property text => "Unknown property: " ++ text
  | .formula text => "Malformed formula '" ++ text ++ "'"

/-! ## Colours -/

/-- A hexadecimal digit, a letter being in lower case. -/
def isLowerHex (c : Char) : Bool :=
  ('0' ≤ c && c ≤ '9') || ('a' ≤ c && c ≤ 'f')

/-- Whether a text is six or eight hexadecimal digits in lower case. -/
def isHexColor (s : List Char) : Bool :=
  (s.length == 6 || s.length == 8) && s.all isLowerHex

/-- A colour, by its hexadecimal digits. -/
structure Color where
  digits : List Char
  valid : isHexColor digits = true
deriving DecidableEq

namespace Color

/-- The colour of a canvas where none is given. -/
def white : Color := ⟨['f', 'f', 'f', 'f', 'f', 'f'], rfl⟩

/-- The colour of a text where none is given. -/
def black : Color := ⟨['0', '0', '0', '0', '0', '0'], rfl⟩

instance : Inhabited Color := ⟨white⟩

/-- The digits alone, as a command carries them. -/
def hex (c : Color) : String :=
  String.ofList c.digits

/-- A colour as it is written in JSON, with a number sign in front. -/
def text (c : Color) : String :=
  "#" ++ c.hex

/-- The digits that a text gives: blanks at its ends and one number sign in
front do not count, and three digits are doubled. -/
def digitsOf (s : List Char) : List Char :=
  let t := trimChars s
  let ds := (after? ['#'] t).getD t
  let full := if ds.length = 3 then ds.flatMap fun c => [c, c] else ds
  full.map Char.toLower

/-- The colour that a text names. -/
def ofText? (s : String) : Except BadValue Color :=
  if h : isHexColor (digitsOf s.toList) = true then .ok ⟨_, h⟩
  else .error (.color s)

end Color

/-! ## Font sizes -/

/-- A font size: pixels, or a percentage of the base size. -/
inductive FontSize where
  | px (size : Float)
  | percent (share : Float)
deriving DecidableEq

namespace FontSize

instance : Inhabited FontSize := ⟨.px 0⟩

/-- The size in pixels over a base size, where a percentage is rounded to a
whole number of them. -/
def resolve (size : FontSize) (base : Float) : Float :=
  match size with
  | .px size => size
  | .percent share => (base * share / 100.0).round

/-- A size as a text, a percentage with its sign. -/
def text : FontSize → String
  | .px size => wireNumber size
  | .percent share => wireNumber share ++ "%"

/-- A finite number above zero, with blanks around it or none. -/
def positive? (s : List Char) : Option Float :=
  (readFloatChars? (trimChars s)).filter fun x => x.isFinite && 0 < x

/-- The size that a text names: a percentage with its sign, or a number of
pixels that may say `px`. -/
def ofText? (s : String) : Except BadValue FontSize :=
  let t := trimChars s.toList
  let size? := match before? ['%'] t with
    | some share => (positive? share).map percent
    | none => (positive? ((before? ['p', 'x'] t).getD t)).map px
  match size? with
  | some size => .ok size
  | none => .error (.fontSize s)

end FontSize

/-! ## Gravity -/

/-- One of nine points of a rectangle. -/
inductive Gravity where
  | northWest
  | north
  | northEast
  | west
  | center
  | east
  | southWest
  | south
  | southEast
deriving DecidableEq

namespace Gravity

instance : Inhabited Gravity := ⟨.northWest⟩

/-- The gravities row by row. -/
def all : List Gravity :=
  [northWest, north, northEast, west, center, east, southWest, south, southEast]

/-- The name of a gravity in JSON and on the wire. -/
def token : Gravity → String
  | northWest => "north_west"
  | north => "north"
  | northEast => "north_east"
  | west => "west"
  | center => "center"
  | east => "east"
  | southWest => "south_west"
  | south => "south"
  | southEast => "south_east"

/-- A name without the marks between its words. -/
def joined (s : List Char) : List Char :=
  s.filter (· != '_')

/-- A name with every hyphen and space as the mark between words, in lower
case. -/
def spelled (s : List Char) : List Char :=
  (trimChars s).map fun c => if c = '-' ∨ c = ' ' then '_' else c.toLower

/-- The gravity that a text names, in either case, with any of three marks
between its words or, throughout, with none. -/
def ofText? (s : String) : Except BadValue Gravity :=
  let name := spelled s.toList
  let found := all.find? fun g =>
    g.token.toList == name || joined g.token.toList == name
  match found with
  | some g => .ok g
  | none => .error (.gravity s)

end Gravity

end Placard
