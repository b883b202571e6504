import Placard.Decimal.Rounding

/-!
# The fewest digits that identify a float

The reals that round to a double form an interval around it. Of the decimals in
that interval this module takes one with the fewest digits, and of those the
nearest to the double. Grids of one, two, … digits are tried in turn, and on
each only the two neighbours of the value: where a grid has a point in the
interval, one of those two is such a point. All comparisons are between natural
numbers.
-/

namespace Placard.Decimal

/-- Where the value lies exactly between the two nearest decimals of its length,
the choice between them. -/
inductive Tie where
  | toEven
  | up
deriving Repr, DecidableEq

/-- The number `digits * 10 ^ exponent`. -/
structure Digits where
  digits : Nat
  exponent : Int
deriving Repr, DecidableEq

/-- A number `num / den` with the interval `[low / den, high / den]` around it,
whose ends belong to it when `closed`. -/
structure Interval where
  num : Nat
  low : Nat
  high : Nat
  den : Nat
  closed : Bool

/-- The interval of the reals that round to `b`, over a denominator that also
makes `10 ^ exponent` a whole number of units: the unit is
`10 ^ exponent` itself. -/
def Binary.interval (b : Binary) (exponent : Int) : Interval :=
  let scale := Nat.pow 2 (b.exponent - 2).toNat * Nat.pow 10 (-exponent).toNat
  { num := 4 * b.mantissa * scale
    low := (4 * b.mantissa - (if b.narrowBelow then 1 else 2)) * scale
    high := (4 * b.mantissa + 2) * scale
    den := Nat.pow 2 (2 - b.exponent).toNat * Nat.pow 10 exponent.toNat
    closed := b.mantissa % 2 = 0 }

/-- Whether a natural number lies in the interval. -/
def Interval.contains (i : Interval) (n : Nat) : Bool :=
  if i.closed then i.low ≤ n * i.den && n * i.den ≤ i.high
  else i.low < n * i.den && n * i.den < i.high

/-- The whole number in the interval nearest to its value, if one of the two
neighbours of the value lies in it. -/
def Interval.nearest? (i : Interval) (tie : Tie) : Option Nat :=
  let below := i.num / i.den
  let above := below + 1
  match i.contains below, i.contains above with
  | false, false => none
  | true, false => some below
  | false, true => some above
  | true, true =>
    match compare (2 * i.num) ((below + above) * i.den) with
    | .lt => some below
    | .gt => some above
    | .eq =>
      match tie with
      | .up => some above
      | .toEven => some (if below % 2 = 0 then below else above)

/-- Whether `10 ^ k` is above the value. -/
def Binary.below (b : Binary) (k : Int) : Bool :=
  b.mantissa * Nat.pow 2 b.exponent.toNat * Nat.pow 10 (-k).toNat <
    Nat.pow 10 k.toNat * Nat.pow 2 (-b.exponent).toNat

/-- The least `k` with `10 ^ k` above the value, found upward from an estimate
that is never above it: 77/256 is a little less than the logarithm of two. -/
def Binary.scale (b : Binary) : Int :=
  let bits : Int := b.exponent + b.mantissa.log2
  let guess := if 0 ≤ bits then bits * 77 / 256 else bits * 78 / 256 - 1
  let steps := (List.range 12).find? fun (n : Nat) => b.below (guess + n)
  guess + (steps.getD 12 : Nat)

/-- The same number without zeros at the end of its digits, of which there are
at most as many as `fuel`. -/
def stripZeros : (fuel : Nat) → Digits → Digits
  | 0, d => d
  | fuel + 1, d =>
    if d.digits % 10 = 0 ∧ d.digits ≠ 0 then
      stripZeros fuel ⟨d.digits / 10, d.exponent + 1⟩
    else d

/-- The fewest digits that identify a positive magnitude. Seventeen always
suffice; the last line stands for no case and gives the exact value. -/
def Binary.shortest (b : Binary) (tie : Tie) : Digits :=
  let k := b.scale
  let found := (List.range 17).findSome? fun (n : Nat) =>
    let exponent := k - (n + 1)
    ((b.interval exponent).nearest? tie).map fun d => Digits.mk d exponent
  match found with
  | some d => stripZeros 20 d
  | none =>
    ⟨b.mantissa * Nat.pow 2 b.exponent.toNat * Nat.pow 5 (-b.exponent).toNat,
      min b.exponent 0⟩

end Placard.Decimal
