import Placard.Text.Split

/-!
# Reading decimal numbers

A decimal text denotes `mantissa * 10 ^ exponent`, and reading it rounds that
number once, to the nearest double. The size of the number is looked at first,
so that no power is computed for a number that is certainly infinite or
certainly zero.
-/

namespace Placard.Decimal

open Text

/-- The double nearest to `mantissa * 10 ^ exponent`, where `digits` is the
number of digits of the mantissa. Beyond 10^310 every double is infinite, and
below 10^-330 zero is the nearest. -/
def nearestFloat (mantissa digits : Nat) (exponent : Int) : Float :=
  if mantissa = 0 then 0.0
  else if 310 < exponent + digits then Float.ofBits 0x7FF0000000000000
  else if exponent + digits < -330 then 0.0
  else if exponent < 0 then Float.ofScientific mantissa true (-exponent).toNat
  else Float.ofScientific mantissa false exponent.toNat

/-- An exponent mark, sign and digits at the end of a number. -/
def exponentPart? : List Char → Option Int
  | [] => some 0
  | e :: s =>
    if e = 'e' ∨ e = 'E' then
      let (negative, ds) := match s with
        | '-' :: ds => (true, ds)
        | '+' :: ds => (false, ds)
        | ds => (false, ds)
      if ds.isEmpty || !ds.all isDigit then none
      else
        let n : Int := natOfDigits 0 ds
        some (if negative then -n else n)
    else none

/-- A number without sign: digits with at most one point among them and at least
one digit in all, and perhaps an exponent. -/
def magnitude? (s : List Char) : Option Float := do
  let whole := s.takeWhile isDigit
  let (fraction, rest) := match s.dropWhile isDigit with
    | '.' :: r => (r.takeWhile isDigit, r.dropWhile isDigit)
    | r => ([], r)
  if whole.isEmpty && fraction.isEmpty then none
  else
    let exponent ← exponentPart? rest
    let ds := whole ++ fraction
    let significant := ds.dropWhile (· == '0')
    some (nearestFloat (natOfDigits 0 ds) significant.length
      (exponent - fraction.length))

/-- The names of the values that digits do not write, in either case. -/
def named? (s : List Char) : Option Float :=
  match String.ofList (s.map Char.toLower) with
  | "inf" => some (Float.ofBits 0x7FF0000000000000)
  | "infinity" => some (Float.ofBits 0x7FF0000000000000)
  | "nan" => some (0.0 / 0.0)
  | _ => none

/-- A float as a user may type it: an optional sign, then a number or a name. -/
def readFloatChars? (s : List Char) : Option Float :=
  match s with
  | '-' :: r => ((magnitude? r).or (named? r)).map fun x => -x
  | '+' :: r => (magnitude? r).or (named? r)
  | r => (magnitude? r).or (named? r)

@[inherit_doc readFloatChars?]
def readFloat? (s : String) : Option Float :=
  readFloatChars? s.toList

/-! ## Reading in steps

The quick way to a double near `digits * 10 ^ exponent`: as many digits as fit
64 bits become a double, which is then multiplied or divided by a power of ten.
Every step rounds, so the result may be a neighbour of the nearest double. It is
the nearest where nothing is rounded on the way: up to 2^53, and for exponents
of at most 22.
-/

/-- The number that `n` grows to as digits are put behind it while it fits 64
bits, and the digits that are left. -/
def fit (n : Nat) : List Char → Nat × List Char
  | [] => (n, [])
  | d :: ds =>
    let m := natOfDigits n [d]
    if m < UInt64.size then fit m ds else (n, d :: ds)

/-- The double nearest to a power of ten. -/
def powerOfTen (exponent : Nat) : Float :=
  nearestFloat 1 1 exponent

/-- `x * 10 ^ exponent`, unless it is beyond every double. A power of ten that
is no double itself is divided by in parts. -/
def scaled? (x : Float) (exponent : Int) : Option Float :=
  if exponent.natAbs ≤ 308 then
    if 0 ≤ exponent then
      let y := x * powerOfTen exponent.toNat
      if y.isInf then none else some y
    else some (x / powerOfTen (-exponent).toNat)
  else if x == 0 then some x
  else if 0 ≤ exponent then none
  else scaled? (x / powerOfTen 308) (exponent + 308)
termination_by (-exponent).toNat

end Placard.Decimal
