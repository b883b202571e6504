import Placard.Decimal.Rounding
import Placard.Decimal.Shortest

/-!
# Laying decimal digits out as text

The digits of a number are one thing and the text is another: where positional
notation ends, whether a whole number keeps its point, and which way a tie
between two equally short decimals goes are choices of the format being
written. A format is a value of `Layout`, defined beside the module that writes
it.
-/

namespace Placard.Decimal

/-- The choices of a number format. -/
structure Layout where
  /-- Where two shortest decimals are equally near. -/
  tie : Tie
  /-- Whether a number whose leading digit counts tens to this power is written
  positionally; it has an exponent otherwise. -/
  positional : Int → Bool
  /-- Whether a whole number written positionally ends in `.0`. -/
  pointZero : Bool
  nan : String
  inf : String

/-- As many zeros as are asked for. -/
def zeros (n : Nat) : List Char :=
  List.replicate n '0'

/-- The digits of a natural number, most significant first. -/
def natChars (n : Nat) : List Char :=
  Nat.toDigits 10 n

/-- The digits with the point where it belongs. -/
def Digits.positional (d : Digits) (pointZero : Bool) : List Char :=
  let ds := natChars d.digits
  if 0 ≤ d.exponent then
    ds ++ zeros d.exponent.toNat ++ (if pointZero then ['.', '0'] else [])
  else
    let places := (-d.exponent).toNat
    if places < ds.length then
      ds.take (ds.length - places) ++ '.' :: ds.drop (ds.length - places)
    else '0' :: '.' :: zeros (places - ds.length) ++ ds

/-- One digit before the point and a signed power of ten behind. -/
def Digits.scientific (d : Digits) : List Char :=
  let ds := natChars d.digits
  let power := d.exponent + (ds.length - 1 : Nat)
  let mantissa := match ds with
    | [] => []
    | [c] => [c]
    | c :: rest => c :: '.' :: rest
  let sign := if power < 0 then '-' else '+'
  mantissa ++ 'e' :: sign :: natChars power.natAbs

/-- A positive magnitude in a format. -/
def Layout.magnitude (l : Layout) (b : Binary) : List Char :=
  let d := if b.mantissa = 0 then ⟨0, 0⟩ else b.shortest l.tie
  let leading := d.exponent + ((natChars d.digits).length - 1 : Nat)
  if l.positional leading then d.positional l.pointZero else d.scientific

/-- The text of a float in a format. The sign of zero is kept. -/
def Layout.render (l : Layout) (x : Float) : String :=
  if x.isNaN then l.nan
  else
    let sign := if isNegative x then "-" else ""
    if x.isInf then sign ++ l.inf
    else sign ++ String.ofList (l.magnitude (Binary.ofFloat x))

/-- Numbers as people read them in messages: never an exponent, no point behind
a whole number, and of two equally near decimals the greater. -/
def plain : Layout where
  tie := .up
  positional _ := true
  pointZero := false
  nan := "NaN"
  inf := "inf"

/-- An integer in decimal digits, with a minus sign if it is negative. -/
def intText (n : Int) : String :=
  let digits := String.ofList (natChars n.natAbs)
  if n < 0 then "-" ++ digits else digits

/-- Numbers as the wire carries them: a whole number below 10^15 in size as an
integer, which has no sign when it is zero, and any other as people read it. -/
def wireNumber (x : Float) : String :=
  if isWhole x && x.abs < 1e15 then intText (nearestInt x) else plain.render x

end Placard.Decimal
