import Placard.Wire.Provenance

/-!
# Reading a string of commands back

A string of commands is split at its slashes, and each fragment is told by its
form: the asset, a command on variables, the canvas, a text, a picture, or the
command that lays what stands before it over the canvas. A fragment of none of
these forms is kept without a layer. The layer of a text or a picture is looked
up, and the layer of the command behind it is the same.
-/

namespace Placard

open Text

/-- A command read back, with the layer that it is credited to. -/
structure Fragment where
  text : String
  provenance : Option String
  kind : SegmentKind
deriving DecidableEq

namespace Fragment

/-- The text that a command shows, escaped: what stands behind the font in the
first parameter that names one. -/
def textPayload? (fragment : List Char) : Option (List Char) := do
  let rest ← (split ',' fragment).findSome? (after? "l_text:".toList)
  let (_, payload) ← cut? ':' rest
  some payload

/-- The asset that a command shows, which is its first parameter. -/
def imageToken? (fragment : List Char) : Option (List Char) :=
  (split ',' fragment).head?.bind (after? ['l', '_'])

/-- The text that a command shows, if it shows one. -/
def decodeText? (fragment : String) : Option String :=
  (textPayload? fragment.toList).map fun p => String.ofList (unescapeChars p)

/-- The layer of the fragment before, if that is a command on variables. -/
def previousVariable? : List Fragment → Option String
  | [] => none
  | f :: _ => if f.kind = .definition then f.provenance else none

/-- Whether the command says what a layer shows. -/
def isContent (f : Fragment) : Bool :=
  f.kind = .textContent || f.kind = .imageContent

/-- The layer of what the last two fragments show, the newest first, as far as
no other command has laid it over the canvas. -/
def applied? (before : List Fragment) : Option String :=
  let recent := (before.take 2).takeWhile fun f => f.kind ≠ .apply
  (recent.find? isContent).bind Fragment.provenance

/-- The kind of a fragment and its layer, after the fragments `before` it,
newest first; and the identifiers used after it. -/
def classify (table : Provenance) (before : List Fragment) (claimed : List Nat)
    (s : List Char) : SegmentKind × Option String × List Nat :=
  let parameters := split ',' s
  let first := parameters.headD []
  if (after? "$subject_".toList s).isSome then (.assetBinding, none, claimed)
  else
    if s = "if_end".toList then (.definition, previousVariable? before, claimed)
  else if (after? ['$'] s).isSome || (after? "if_".toList s).isSome then
    (.definition, table.resolve .«variables» s claimed)
  else if (after? "b_".toList first).isSome && "c_pad".toList ∈ parameters then
    (.canvas, some canvasKey, claimed)
  else match textPayload? s with
    | some payload => (.textContent, table.resolve .texts payload claimed)
    | none =>
      match imageToken? s with
      | some token => (.imageContent, table.resolve .images token claimed)
      | none =>
        if first = "fl_layer_apply".toList then (.apply,
          applied? before, claimed)
        else (.generic, none, claimed)

/-- The fragments read onto those before them, newest first. -/
def parseFrom (table : Provenance) (before : List Fragment)
    (claimed : List Nat) :
    List (List Char) → List Fragment
  | [] => before.reverse
  | s :: rest =>
    let (kind, provenance, claimed) := classify table before claimed s
    parseFrom table (⟨String.ofList s, provenance, kind⟩ :: before) claimed rest

/-- The commands of a compiled string, each with the layer that it came from. -/
def parse (table : Provenance) (compiled : String) : List Fragment :=
  parseFrom table [] [] ((split '/' compiled.toList).filter fun s => !s.isEmpty)

end Fragment

/-- A fragment in JSON. -/
def Fragment.toJson (f : Fragment) : Json :=
  .object [("text", .string f.text),
    ("provenanceKey", .optional .string f.provenance),
    ("kind", .string f.kind.token)]

end Placard
