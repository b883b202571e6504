import Placard.Decimal.Rounding
import Placard.Template.Scalars
import Placard.Template.Property

/-!
# Property values

A property is written with a value that says its kind, and read as one. What a
property stores is of a type of its own; `Kind` lists these types, and for each
of them how a stored value reads and which values may be written to it. Writing
tolerates more than reading gives: a text is accepted where it names a font
size, a gravity or a colour, and an empty text where there need be none.
-/

namespace Placard

open Decimal

/-- A value that is written to a property or read from one. -/
inductive Value where
  | number (x : Float)
  | text (s : String)
  | flag (b : Bool)
  | fontSize (size : FontSize)
  | gravity (g : Gravity)
  | color (c : Color)
  | unset
deriving DecidableEq

namespace Value

/-- Equality of values that compares numbers as numbers: both zeros are equal,
and what is no number equals nothing. -/
def same : Value → Value → Bool
  | number x, number y => x == y
  | text s, text t => s == t
  | flag a, flag b => a == b
  | fontSize (.px x), fontSize (.px y) => x == y
  | fontSize (.percent x), fontSize (.percent y) => x == y
  | gravity g, gravity h => g == h
  | color c, color d => c == d
  | unset, unset => true
  | _, _ => false

/-- A number, or unset if there is none. -/
def ofNumber? : Option Float → Value
  | some x => number x
  | none => unset

/-- A text, or unset if there is none. -/
def ofText? : Option String → Value
  | some s => text s
  | none => unset

end Value

/-- Why a value is not written to a property. -/
inductive WriteError where
  /-- The layer does not have the property. -/
  | unknown (layer : String) (property : Property)
  /-- The property takes values of another kind. -/
  | mismatch (property : Property) (expected : String)
  /-- The kind is right and the value is not. -/
  | invalid (property : Property) (reason : String)
deriving DecidableEq

/-- The message of an error, as it is answered with. -/
def WriteError.message : WriteError → String
  | unknown layer property =>
    "Property " ++ property.name ++ " does not exist on layer " ++ layer
  | mismatch property expected =>
    "Property " ++ property.name ++ " expects a " ++ expected ++ " value"
  | invalid property reason =>
    "Invalid value for " ++ property.name ++ ": " ++ reason

/-- What values a property has. -/
inductive Kind where
  | number
  | optionalNumber
  /-- A place in the drawing order, or none. -/
  | rank
  | text
  | optionalText
  | flag
  | fontSize
  | gravity
  | color
  /-- A side of the canvas. -/
  | side
deriving DecidableEq

namespace Kind

/-- What a property of a kind is stored as. -/
abbrev Stored : Kind → Type
  | number => Float
  | optionalNumber => Option Float
  | rank => Option Int32
  | text => String
  | optionalText => Option String
  | flag => Bool
  | fontSize => FontSize
  | gravity => Gravity
  | color => Color
  | side => UInt32

/-- What is read from a property of a kind. -/
def read : (k : Kind) → k.Stored → Value
  | number, x => .number x
  | optionalNumber, x? => .ofNumber? x?
  | rank, n? => .ofNumber? (n?.map fun n => Float.ofInt n.toInt)
  | text, s => .text s
  | optionalText, s? => .ofText? s?
  | flag, b => .flag b
  | fontSize, size => .fontSize size
  | gravity, g => .gravity g
  | color, c => .color c
  | side, n => .number (Float.ofNat n.toNat)

/-- A finite number. -/
def finite? (p : Property) : Value → Except WriteError Float
  | .number x => if x.isFinite then .ok x else .error (.mismatch p "number")
  | _ => .error (.mismatch p "number")

/-- A finite number, or none for what is unset. -/
def finiteOrUnset? (p : Property) : Value → Except WriteError (Option Float)
  | .unset => .ok none
  | v => (finite? p v).map some

/-- The whole number of pixels that a side is given, at least one. -/
def side? (p : Property) (x : Float) : Except WriteError UInt32 :=
  let n := nearestInt x
  if 1 ≤ n ∧ n < UInt32.size then .ok (UInt32.ofNat n.toNat)
  else .error (.invalid p "canvas dimensions must be positive")

/-- A value that a text may name, whose fault is a fault of the value. -/
def named? {α : Type} (p : Property) (r : Except BadValue α) :
    Except WriteError α :=
  r.mapError fun e => .invalid p e.message

/-- What is stored when a value is written, if the property takes it. -/
def store? : (k : Kind) → Property → Value → Except WriteError k.Stored
  | number, p, v => finite? p v
  | optionalNumber, p, v => finiteOrUnset? p v
  | rank, p, v =>
    (finiteOrUnset? p v).map fun x? => x?.map fun x => Int32.ofInt (toInt32 x)
  | text, p, v =>
    match v with
    | .text s => .ok s
    | _ => .error (.mismatch p "text")
  | optionalText, p, v =>
    match v with
    | .unset => .ok none
    | .text s => .ok (if s.isEmpty then none else some s)
    | _ => .error (.mismatch p "text")
  | flag, p, v =>
    match v with
    | .flag b => .ok b
    | _ => .error (.mismatch p "boolean")
  | fontSize, p, v =>
    match v with
    | .fontSize size => .ok size
    | .number x =>
      if x.isFinite && 0 < x then .ok (.px x)
      else .error (.mismatch p "font size")
    | .text s => named? p (FontSize.ofText? s)
    | _ => .error (.mismatch p "font size")
  | gravity, p, v =>
    match v with
    | .gravity g => .ok g
    | .text s => named? p (Gravity.ofText? s)
    | _ => .error (.mismatch p "gravity")
  | color, p, v =>
    match v with
    | .color c => .ok c
    | .text s => named? p (Color.ofText? s)
    | _ => .error (.mismatch p "color")
  | side, p, v => do
    let x ← finite? p v
    side? p x

end Kind

/-- Where a property of an `α` is stored. -/
structure Slot (α : Type) where
  kind : Kind
  get : α → kind.Stored
  put : kind.Stored → α → α

namespace Slot

variable {α β : Type}

/-- What is read from the slot. -/
def read (s : Slot α) (a : α) : Value :=
  s.kind.read (s.get a)

/-- The `α` with a value written to the property. -/
def write (s : Slot α) (p : Property) (v : Value) (a : α) :
    Except WriteError α :=
  (s.kind.store? p v).map fun stored => s.put stored a

end Slot

end Placard
