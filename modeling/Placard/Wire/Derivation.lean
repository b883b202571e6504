import Placard.Wire.Command

/-!
# Which calculations reach the wire

A calculation is compiled to a derivation of one variable from another if its
formula can be read, it depends on another text layer, the chain of layers it
goes back through ends, and its field is not the one it would be derived from.
Of these, a derivation is dropped if what it starts from may be empty; and since
the layer then shows its literal, which may be empty too, this is repeated until
nothing more has to go.

The derivations that stay form a forest over the text layers. Definitions are
written in the order in which it is walked: each layer that is not derived, in
declaration order, then those that depend on it, each followed by its own.
-/

namespace Placard

/-- A derivation: the layer it depends on, and how its variable is defined. -/
structure Derivation where
  source : String
  expression : Expression
deriving DecidableEq

/-- Derivations by the layers whose fields they define. -/
abbrev Derivations := Table Derivation

namespace Template

/-- The calculation of a text layer, if there is one. -/
def calculation? (t : Template) (key : String) : Option Calculation :=
  (t.textLayer? key).bind TextLayer.calculation

/-- Whether the chain of layers from `key` on, which has been through `visited`,
comes to a layer that does not calculate before it comes to one twice. No chain
is longer than there are layers. -/
def chainEnds (t : Template) : (fuel : Nat) → (visited : List String) →
    (key : String) → Bool
  | 0, _, _ => false
  | fuel + 1, visited, key =>
    match t.calculation? key with
    | none => true
    | some c =>
      c.dependsOn ∉ key :: visited && t.chainEnds fuel (key :: visited)
        c.dependsOn

/-- Whether the calculation of the layer under a key can be followed: its own
formula is read and depends on another text layer, and the chain from there on
ends. -/
def canFollow (t : Template) (key : String) : Bool :=
  match t.calculation? key with
  | none => true
  | some c =>
    c.steps?.isSome && c.dependsOn ≠ key && (t.textLayer? c.dependsOn).isSome &&
      t.chainEnds (t.layers.length + 1) [key] c.dependsOn

/-- The derivation of a text layer, if its calculation can be followed and has a
variable of its own. -/
def derivation? (t : Template) (key : String) (text : TextLayer) :
    Option Derivation := do
  let c ← text.calculation
  if !t.canFollow key then none else
  let dependency ← t.textLayer? c.dependsOn
  let target ← t.variables.get? (text.field key)
  let source ← t.variables.get? (dependency.field c.dependsOn)
  if target = source then none
  else
    let expression ← (Expression.ofCalculation key target source c).toOption
    some ⟨c.dependsOn, expression⟩

/-- The derivations of a template, by the layers that are derived. -/
def derivations (t : Template) : Derivations :=
  Table.ofList <| t.textLayers.filterMap fun (key, text) =>
    (t.derivation? key text).map fun d => (key, d)

/-- Whether a derivation starts from a layer that is not derived itself and
whose content may be empty. -/
def startsEmpty (t : Template) (bs : Bindings) (kept : Derivations)
    (d : Derivation) : Bool :=
  !kept.contains d.source &&
    match t.textLayer? d.source with
    | some text => !(bs.resolve d.source text).holdsValue
    | none => false

/-- The derivations without those that start empty. -/
def dropEmpty (t : Template) (bs : Bindings) (kept : Derivations) :
    Derivations :=
  kept.filter fun _ d => !t.startsEmpty bs kept d

/-- The derivations with those that start empty dropped until there are none. -/
def settle (t : Template) (bs : Bindings) (kept : Derivations) : Derivations :=
  let rest := t.dropEmpty bs kept
  if rest.size < kept.size then t.settle bs rest else kept
termination_by kept.size

/-- The derivations that reach the wire. -/
def keptDerivations (t : Template) (bs : Bindings) : Derivations :=
  t.settle bs t.derivations

/-- The text layers that are derived from the layer under a key. -/
def dependents (t : Template) (kept : Derivations) (key : String) :
    List String :=
  (t.textLayers.map (·.1)).filter fun k =>
    (kept.get? k).any fun d => d.source = key

/-- The keys seen so far and, if `key` is not among them, `key` and its
dependents behind them, with theirs. No path is longer than there are
layers. -/
def visit (t : Template) (kept : Derivations) : (fuel : Nat) →
    (seen : List String) → (key : String) → List String
  | 0, seen, _ => seen
  | fuel + 1, seen, key =>
    if key ∈ seen then seen
    else if (t.textLayer? key).isNone then seen ++ [key]
    else (t.dependents kept key).foldl (t.visit kept fuel) (seen ++ [key])

/-- The text layers in the order in which their variables are defined. -/
def definitionOrder (t : Template) (kept : Derivations) : List String :=
  let roots := (t.textLayers.map (·.1)).filter fun k => !kept.contains k
  roots.foldl (t.visit kept (t.layers.length + 1)) []

end Template

end Placard
