import Placard.Decimal.Layout
import Placard.Table
import Placard.Template.Basic

/-!
# Variables of fields

On the wire a field is held in a variable. Its name is what the name of the
field has of ASCII letters and digits; where that is taken already, the first
number from two on that makes a free name is put behind it. Names are given in
the order in which the text layers declare their fields, so a layer added at the
end changes no name.
-/

namespace Placard

/-- A variable of the wire, by the name of its field. -/
structure Variable where
  name : String
deriving DecidableEq, Inhabited

namespace Variable

/-- The variable that holds the value of the field. -/
def value (v : Variable) : String :=
  "$f" ++ v.name

/-- The variable that holds what a look-up gave. -/
def scratch (v : Variable) : String :=
  "$m" ++ v.name

/-- What stands in a text for the value. -/
def reference (v : Variable) : String :=
  "$(f" ++ v.name ++ ")"

/-- A letter or a digit, which is what a name of a variable keeps of a
field's. -/
def isNameChar (c : Char) : Bool :=
  Text.isDigit c || ('A' ≤ c && c ≤ 'Z') || ('a' ≤ c && c ≤ 'z')

/-- The characters of a field's name that a variable's name can have. -/
def baseName (field : String) : String :=
  let kept := field.toList.filter isNameChar
  if kept.isEmpty then "field" else String.ofList kept

/-- The names tried for a base, in turn: the base, then numbered from two. -/
def candidate (base : String) : Nat → String
  | 0 => base
  | n + 1 => base ++ Decimal.intText (n + 2)

/-- The first name for a base that is not taken. Among one more candidates than
there are names taken, one is free. -/
def freeName (base : String) (taken : List String) : String :=
  let names := (List.range (taken.length + 1)).map (candidate base)
  (names.find? fun n => n ∉ taken).getD base

/-- The variables of fields in turn, none of whose names is taken. -/
def assign (taken : List String) : List String → List (String × Variable)
  | [] => []
  | field :: rest =>
    let name := freeName (baseName field) taken
    (field, ⟨name⟩) :: assign (name :: taken) rest

end Variable

/-- A list without the repetitions of what stands in it before. -/
def distinct : List String → List String
  | [] => []
  | a :: rest => a :: (distinct rest).filter fun b => b ≠ a

namespace Template

/-- The fields of the text layers, each once, in declaration order. -/
def fields (t : Template) : List String :=
  distinct (t.textLayers.map fun (key, text) => text.field key)

/-- The variables of a template by the fields that they are for. -/
def «variables» (t : Template) : Table Variable :=
  Table.ofList (Variable.assign [] t.fields)

end Template

end Placard
