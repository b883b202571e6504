import Placard.Decimal.Layout
import Placard.Decimal.Reader
import Placard.Field.Binding

/-!
# Previewing text

What a text layer will show, as far as that is known before rendering. A
calculation is carried out on the preview of the layer it depends on, through at
most sixteen layers; where it gives no number, and where there is none, the
literal is shown. What metadata will give is not known.
-/

namespace Placard

open Text Decimal

namespace Bindings

/-- The layers that a chain of calculations is followed through. -/
def previewDepth : Nat := 16

/-- The calculation of a text layer, if it depends on another text layer and has
a formula that can be read. -/
def usableCalculation? (t : Template) (key : String) (text : TextLayer) :
    Option (String × List Step) := do
  let c ← text.calculation
  let steps ← c.steps?
  if (t.textLayer? c.dependsOn).isSome ∧ c.dependsOn ≠ key then
    some (c.dependsOn, steps)
  else none

/-- The number that the steps make of the text of a number. -/
def calculated? (steps : List Step) (source : String) : Option String := do
  let x ← readFloatChars? (trimChars source.toList)
  let y ← Formula.value? steps x
  some (wireNumber y)

/-- The literal of a field, if it is not looked up. -/
def literal? (b : Binding) : Option String :=
  if b.looksUp then none else some b.currentLiteral

/-- What a text layer shows between its lead and trail; `depth` calculations may
be followed. -/
def previewValue? (bs : Bindings) (t : Template) :
    (depth : Nat) → (key : String) →
    Option String
  | 0, key => do
    let text ← t.textLayer? key
    literal? (bs.resolve key text)
  | depth + 1, key => do
    let text ← t.textLayer? key
    let own := literal? (bs.resolve key text)
    match usableCalculation? t key text with
    | none => own
    | some (source, steps) => do
      let value ← bs.previewValue? t depth source
      (calculated? steps value).or own

/-- The text that a layer would show, unless what it starts from is known only
after rendering. -/
def previewText? (bs : Bindings) (t : Template) (key : String) :
    Option String := do
  let text ← t.textLayer? key
  let value ← bs.previewValue? t previewDepth key
  some (text.lead ++ value ++ text.trail)

end Bindings

end Placard
