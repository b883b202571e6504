import Placard.Decimal.Reader
import Placard.Decimal.Rounding

/-!
# Formulas

A formula is a chain of steps, each an operator and a number, applied from left
to right to the value of another layer: `* 0.8 + 1` takes eight tenths and adds
one. Blanks may stand before an operator, behind it, and at the end. A number
has an optional sign and is read as far as digits and points go.
-/

namespace Placard

open Text Decimal

/-- What a step of a formula does to a value. -/
inductive Operator where
  | add
  | sub
  | mul
  | div
  | mod
  | pow
deriving DecidableEq

namespace Operator

/-- The name of an operator on the wire. -/
def token : Operator → String
  | add => "add"
  | sub => "sub"
  | mul => "mul"
  | div => "div"
  | mod => "mod"
  | pow => "pow"

/-- The operator that a character stands for in a formula. -/
def ofSymbol? : Char → Option Operator
  | '+' => some add
  | '-' => some sub
  | '*' => some mul
  | '/' => some div
  | '%' => some mod
  | '^' => some pow
  | _ => none

/-- What an operator makes of a value and an operand. -/
def apply : Operator → Float → Float → Float
  | add, x, y => x + y
  | sub, x, y => x - y
  | mul, x, y => x * y
  | div, x, y => x / y
  | mod, x, y => remainder x y
  | pow, x, y => x.pow y

end Operator

/-- One step of a formula. -/
structure Step where
  op : Operator
  operand : Float
deriving DecidableEq

namespace Formula

/-- The number text at the front: a sign if there is one, then digits and
points. -/
def literal : List Char → List Char
  | [] => []
  | c :: s =>
    if c = '-' ∨ c = '+' then c :: s.takeWhile fun d => isDigit d || d == '.'
    else (c :: s).takeWhile fun d => isDigit d || d == '.'

/-- The operand that a number text denotes: a finite number. -/
def operand? (s : List Char) : Option Float :=
  (readFloatChars? s).filter Float.isFinite

/-- The steps of a text, none of them if it is blank. -/
def stepsFrom? (s : List Char) : Option (List Step) :=
  match _h : s.dropWhile isBlank with
  | [] => some []
  | c :: r => do
    let op ← Operator.ofSymbol? c
    let t := r.dropWhile isBlank
    let operand ← operand? (literal t)
    let more ← stepsFrom? (t.drop (literal t).length)
    some (⟨op, operand⟩ :: more)
termination_by s.length
decreasing_by
  have h1 : (c :: r).length ≤ s.length :=
    _h ▸ (List.dropWhile_sublist isBlank).length_le
  have h2 : (r.dropWhile isBlank).length ≤ r.length :=
    (List.dropWhile_sublist isBlank).length_le
  simp only [List.length_cons, List.length_drop] at *
  omega

/-- The steps of a formula, of which there is at least one. -/
def steps? (formula : String) : Option (List Step) :=
  (stepsFrom? formula.toList).filter fun steps => !steps.isEmpty

/-- The value of a chain of steps on an input, where it is finite. -/
def value? (steps : List Step) (input : Float) : Option Float :=
  some (steps.foldl (fun x s => s.op.apply x s.operand) input)
    |>.filter Float.isFinite

end Formula

end Placard
