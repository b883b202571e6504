import Placard.Decimal.Layout
import Placard.Field.Binding
import Placard.Field.Variable
import Placard.Text.Reserved

/-!
# Commands that define variables

A field is inlined as a literal, or a variable is defined for it: by a literal,
by a look-up in the metadata of the asset over a literal to fall back on, or by
a chain of steps from the variable of another field. A look-up takes five
commands: the literal is assigned, the metadata is fetched into a scratch
variable, and if that is not empty it replaces the literal. A look-up without
literal falls back on a single space, so no variable is ever empty.

A literal that is a plain number stands for itself, digit for digit. Any other
is escaped and put between exclamation marks.
-/

namespace Placard

open Text

/-! ## Literals -/

/-- A literal as the wire tells them apart. -/
inductive Literal where
  /-- A number, kept exactly as it was entered. -/
  | number (digits : String)
  | text (s : String)
deriving DecidableEq

namespace Literal

/-- Whether a text is digits, at least one. -/
def isDigits (s : List Char) : Bool :=
  !s.isEmpty && s.all isDigit

/-- Digits, perhaps with a minus sign in front and with a point among them. -/
def isPlainNumber (s : List Char) : Bool :=
  let ds := (after? ['-'] s).getD s
  match cut? '.' ds with
  | none => isDigits ds
  | some (whole, fraction) => isDigits whole && isDigits fraction

/-- The literal that a text is on the wire. -/
def ofText (s : String) : Literal :=
  if isPlainNumber s.toList then .number s else .text s

/-- The text as it was entered. -/
def raw : Literal → String
  | .number digits => digits
  | .text s => s

/-- The literal as it stands in a command. -/
def token : Literal → String
  | .number digits => digits
  | .text s => "!" ++ escape s ++ "!"

end Literal

/-! ## Commands -/

/-- A command on variables. -/
inductive Command where
  | assign (target : Variable) (literal : Literal)
  /-- The scratch variable of `target` holds the metadata under a key. -/
  | lookUp (target : Variable) (key : String)
  /-- What follows, up to `endIf`, is done if the scratch variable of `target`
  is not empty. -/
  | ifFound (target : Variable)
  /-- `target` holds what its scratch variable holds. -/
  | keep (target : Variable)
  | endIf
  /-- `target` holds what the steps make of `source`. -/
  | derive (target source : Variable) (steps : List Step)
deriving DecidableEq

namespace Command

/-- A step as it stands in a command. -/
def stepText (s : Step) : String :=
  "_" ++ s.op.token ++ "_" ++ Decimal.wireNumber s.operand

/-- The command as it stands on the wire. -/
def text : Command → String
  | assign target literal => target.value ++ "_" ++ literal.token
  | lookUp target key => target.scratch ++ "_md:!" ++ escape key ++ "!"
  | ifFound target => "if_" ++ target.scratch ++ "_ne_!!"
  | keep target => target.value ++ "_" ++ target.scratch
  | endIf => "if_end"
  | derive target source steps =>
    target.value ++ "_" ++ source.value ++ String.join (steps.map stepText)

end Command

/-- How a field gets onto the wire. -/
inductive Expression where
  /-- Inlined; no variable is defined. -/
  | literal (value : Literal)
  | assigned (target : Variable) (value : Literal)
  | lookedUp (target : Variable) (fallback : Literal) (key : String)
  | derived (target source : Variable) (steps : List Step)
deriving DecidableEq

namespace Expression

/-- The variable that is defined, if one is. -/
def target? : Expression → Option Variable
  | literal _ => none
  | assigned target _ => some target
  | lookedUp target _ _ => some target
  | derived target _ _ => some target

/-- The commands that define the variable, in the order in which they are
carried out. -/
def commands : Expression → List Command
  | literal _ => []
  | assigned target value => [.assign target value]
  | lookedUp target fallback key =>
    [.assign target fallback, .lookUp target key, .ifFound target, .keep target,
     .endIf]
  | derived target source steps => [.derive target source steps]

/-- What a field's content becomes; `needed` says that another field is derived
from it. -/
def ofBinding (b : Binding) (target : Variable) (needed : Bool) : Expression :=
  if b.looksUp then
    let fallback :=
      if b.currentLiteral.isEmpty then .text " "
      else Literal.ofText b.currentLiteral
    lookedUp target fallback b.metadataKey
  else if needed then assigned target (Literal.ofText b.currentLiteral)
  else literal (Literal.ofText b.currentLiteral)

/-- What the field of a layer becomes that is calculated from another one, if
the formula can be read. -/
def ofCalculation (layer : String) (target source : Variable)
    (c : Calculation) : Except BindError Expression :=
  match c.steps? with
  | some steps => .ok (derived target source steps)
  | none => .error (.malformedFormula layer c.formula)

end Expression

end Placard
