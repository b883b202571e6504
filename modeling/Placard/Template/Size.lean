import Placard.Decimal.Layout
import Placard.Text.Split

/-!
# Sizes in pixels

The size of a canvas or of a rendered picture, written `WIDTHxHEIGHT`. Reading
one names the first fault from the left: in the shape, then in the width, then
in the height, and within a side at the first character that is no digit or
makes the number too large.
-/

namespace Placard

open Text

/-- The width and the height of a canvas in pixels. -/
structure Size where
  width : UInt32
  height : UInt32
deriving DecidableEq, Inhabited

namespace Size

/-- Why a text names no size. -/
inductive Fault where
  /-- There is no `x` in it. -/
  | shape (text : String)
  | emptySide
  | badDigit
  | tooLarge
deriving DecidableEq

/-- The message of an error, as it is answered with. -/
def Fault.message : Fault → String
  | .shape text => "expected WIDTHxHEIGHT, got '" ++ text ++ "'"
  | .emptySide => "cannot parse integer from empty string"
  | .badDigit => "invalid digit found in string"
  | .tooLarge => "number too large to fit in target type"

/-- A side in decimal digits. -/
def sideText (n : UInt32) : String :=
  Decimal.intText n.toNat

/-- A size as it is written, with an `x` between its sides. -/
def text (s : Size) : String :=
  sideText s.width ++ "x" ++ sideText s.height

/-- Digits read onto the number before them, which stays below 2^32. -/
def digits? (n : Nat) : List Char → Except Fault Nat
  | [] => .ok n
  | c :: s =>
    if isDigit c then
      let n := 10 * n + (c.toNat - '0'.toNat)
      if n < UInt32.size then digits? n s else .error .tooLarge
    else .error .badDigit

/-- A side: digits, perhaps with a plus sign in front. -/
def side? (s : List Char) : Except Fault UInt32 :=
  match trimChars s with
  | [] => .error .emptySide
  | ['+'] => .error .badDigit
  | '+' :: s => (digits? 0 s).map UInt32.ofNat
  | s => (digits? 0 s).map UInt32.ofNat

/-- The size that a text names. -/
def ofText? (s : String) : Except Fault Size :=
  match cut? 'x' s.toList with
  | none => .error (.shape s)
  | some (w, h) => do
    let width ← side? w
    let height ← side? h
    pure ⟨width, height⟩

end Size

end Placard
