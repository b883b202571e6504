/-!
# Floats as exact binary numbers, and whole numbers from floats

A finite double is a sign and a magnitude `mantissa * 2 ^ exponent`. Everything
here that has to be exact (the choice of decimal digits, rounding to an
integer, the remainder) works on that pair in integer arithmetic, where no step
rounds.

Rounding goes to the nearest integer and a half goes away from zero. What does
not fit the range that the caller names is moved to the nearer end of it, and
what is no number counts as zero. The remainder is that of division toward
zero, and is exact.
-/

namespace Placard.Decimal

/-- The magnitude of a finite double, `mantissa * 2 ^ exponent`. -/
structure Binary where
  mantissa : Nat
  exponent : Int
  /-- The next double below is half as far away as the next one above. -/
  narrowBelow : Bool
deriving Repr, DecidableEq

/-- The sign bit: set for `-0` as well. -/
def isNegative (x : Float) : Bool :=
  x.toBits.toNat / Nat.pow 2 63 = 1

/-- The magnitude of a double that is neither infinite nor no number. -/
def Binary.ofFloat (x : Float) : Binary :=
  let bits := x.toBits.toNat
  let biased : Nat := bits / Nat.pow 2 52 % Nat.pow 2 11
  let fraction : Nat := bits % Nat.pow 2 52
  if biased = 0 then ⟨fraction, -1074, false⟩
  else
    ⟨Nat.pow 2 52 + fraction, (biased : Int) - 1075, fraction = 0 ∧ 1 < biased⟩

/-- The double of the given sign and magnitude `mantissa * 2 ^ exponent`, where
there is one: the mantissa then loses nothing when it is moved to 53 bits. -/
def ofParts (negative : Bool) (mantissa : Nat) (exponent : Int) : Float :=
  let sign := if negative then Nat.pow 2 63 else 0
  if mantissa = 0 then Float.ofBits (UInt64.ofNat sign) else
  let top := exponent + mantissa.log2
  let bits :=
    if -1022 ≤ top then
      let full := mantissa * Nat.pow 2 (52 - mantissa.log2) /
        Nat.pow 2 (mantissa.log2 - 52)
      (top + 1023).toNat * Nat.pow 2 52 + (full - Nat.pow 2 52)
    else mantissa * Nat.pow 2 (exponent + 1074).toNat /
      Nat.pow 2 (-1074 - exponent).toNat
  Float.ofBits (UInt64.ofNat (sign + bits))

/-! ## Whole numbers -/

/-- `mantissa * 2 ^ exponent` to the nearest natural number, halves up. -/
def Binary.nearest (b : Binary) : Nat :=
  if 0 ≤ b.exponent then b.mantissa * Nat.pow 2 b.exponent.toNat
  else
    let unit := Nat.pow 2 (-b.exponent).toNat
    (2 * b.mantissa + unit) / (2 * unit)

/-- The nearest integer to a finite double, halves away from zero. -/
def nearestInt (x : Float) : Int :=
  let n : Int := (Binary.ofFloat x).nearest
  if isNegative x then -n else n

/-- The integer of `[lo, hi]` nearest to a double, and zero for what is no
number. -/
def toRange (lo hi : Int) (x : Float) : Int :=
  if x.isNaN then 0
  else if x.isInf then if isNegative x then lo else hi
  else max lo (min hi (nearestInt x))

/-- The nearest integer of 64 bits. -/
def toInt64 (x : Float) : Int :=
  toRange Int64.minValue.toInt Int64.maxValue.toInt x

/-- The nearest integer of 32 bits. -/
def toInt32 (x : Float) : Int :=
  toRange Int32.minValue.toInt Int32.maxValue.toInt x

/-- Whether a double is finite and an integer. -/
def isWhole (x : Float) : Bool :=
  x.isFinite &&
    let b := Binary.ofFloat x
    0 ≤ b.exponent || b.mantissa % Nat.pow 2 (-b.exponent).toNat = 0

/-- What division of `x` by `y` toward zero leaves over: exact, and with the
sign of `x`. -/
def remainder (x y : Float) : Float :=
  if x.isNaN || y.isNaN || x.isInf || y == 0 then 0.0 / 0.0
  else if y.isInf then x
  else
    let a := Binary.ofFloat x
    let b := Binary.ofFloat y
    let low := min a.exponent b.exponent
    ofParts (isNegative x)
      (a.mantissa * Nat.pow 2 (a.exponent - low).toNat %
        (b.mantissa * Nat.pow 2 (b.exponent - low).toNat)) low

end Placard.Decimal
