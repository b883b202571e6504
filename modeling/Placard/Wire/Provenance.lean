import Placard.Wire.Plan

/-!
# Telling which layer a command came from

A string of commands carries no layer keys. They are recovered by searching each
command for what is known to identify a layer: the two names of its variable,
its text, or its asset. Of the identifiers found, the one that starts furthest
left counts, of these the longest, and of these one that has not been used for
an earlier command. An identifier is not found where it stands inside a longer
one of another layer.
-/

namespace Placard

open Text

/-- What kind of command an identifier is searched for in. -/
inductive Category where
  | «variables»
  | texts
  | images
deriving DecidableEq

/-- A text that identifies a layer. -/
structure Needle where
  value : List Char
  layer : String
  category : Category
deriving DecidableEq

/-- The identifiers of a plan, in the order of the plan. -/
abbrev Provenance := List Needle

namespace Provenance

/-- The category of what a command shows, if it shows anything. -/
def categoryOf? : SegmentKind → Option Category
  | .textContent => some .texts
  | .imageContent => some .images
  | _ => none

/-- The identifiers that a plan gives: two for every variable, one for every
layer that shows something. -/
def ofPlan (p : Plan) : Provenance :=
  p.variables.flatMap (fun (layer, v) =>
    [⟨v.value.toList, layer, .«variables»⟩,
      ⟨v.scratch.toList, layer, .«variables»⟩]) ++
  p.layers.filterMap fun e =>
    (categoryOf? e.kind).map fun c => ⟨e.identifier.toList, e.key, c⟩

/-- The longer identifiers of other layers that an identifier stands in. -/
def covering (table : Provenance) (short : Needle) : List Needle :=
  table.filter fun long =>
    long.category = short.category && long.layer ≠ short.layer &&
      byteLength short.value < byteLength long.value &&
      occursIn short.value long.value

/-- The first occurrence of an identifier in a region that lies inside none of
those that cover it. -/
def position? (table : Provenance) (n : Needle) (region : List Char) :
    Option Nat :=
  let covers := (table.covering n).flatMap fun long =>
    (offsets long.value region).map fun start =>
      (start, start + byteLength long.value)
  (offsets n.value region).find? fun start =>
    !covers.any fun (first, last) =>
      first ≤ start && start + byteLength n.value ≤ last

/-- An identifier that was found: where it starts, how long it is, and its place
in the table. -/
structure Match where
  start : Nat
  length : Nat
  index : Nat

/-- Whether a match is preferred to the best one so far. -/
def Match.beats (m best : Match) (claimed : List Nat) : Bool :=
  m.start < best.start ||
    (m.start = best.start && best.length < m.length) ||
    (m.start = best.start && m.length = best.length &&
      best.index ∈ claimed && m.index ∉ claimed)

/-- The match of a category in a region that is not beaten by another one. -/
def search? (table : Provenance) (category : Category) (region : List Char)
    (claimed : List Nat) : Option Match :=
  table.zipIdx.foldl
    (fun best (n, i) =>
      if n.category ≠ category then best else
      match table.position? n region with
      | none => best
      | some start =>
        let m : Match := ⟨start, byteLength n.value, i⟩
        match best with
        | none => some m
        | some b => if m.beats b claimed then some m else some b)
    none

/-- The places of the identifiers of a category that are the whole region. -/
def exact (table : Provenance) (category : Category) (region : List Char) :
    List Nat :=
  (table.zipIdx.filter fun (n, _) =>
    n.category = category && n.value == region).map (·.2)

/-- The place of the identifier that a region is credited to: one that is the
whole region, the first that has not been used if there is any, or else the best
match. -/
def choose? (table : Provenance) (category : Category) (region : List Char)
    (claimed : List Nat) : Option Nat :=
  match table.exact category region with
  | [] => (table.search? category region claimed).map Match.index
  | first :: rest =>
    some (((first :: rest).find? fun i => i ∉ claimed).getD first)

/-- The layer that a region is credited to, and the identifiers used after it.
Variables are read any number of times, and never used up. -/
def resolve (table : Provenance) (category : Category) (region : List Char)
    (claimed : List Nat) : Option String × List Nat :=
  match table.choose? category region claimed with
  | none => (none, claimed)
  | some i =>
    ((table[i]?).map Needle.layer,
      if category = .«variables» then claimed else i :: claimed)

end Provenance

end Placard
