import Placard.Table

/-!
# JSON values

A JSON value as its text gives it: the members of an object stand in the order
of the text, a repeated key included. The normal form of a value has the
members of every object in ascending order of their keys and, of several with
one key, the last. Two texts that differ only in the order of members have
values with one normal form.
-/

namespace Placard

/-- A JSON number: an integer that fits 64 bits, with or without sign, or a
real. -/
inductive Json.Number where
  | int (n : Int)
  | real (x : Float)
deriving DecidableEq

/-- A JSON value. The members of an object are kept in their order, and of any
number. -/
inductive Json where
  | null
  | bool (b : Bool)
  | number (n : Json.Number)
  | string (s : String)
  | array (elements : List Json)
  | object (members : List (String × Json))

namespace Json

instance : Inhabited Json := ⟨.null⟩

/-- An integer as a value. -/
def int (n : Int) : Json :=
  .number (.int n)

/-- A double as a value. -/
def real (x : Float) : Json :=
  .number (.real x)

/-- The double that a number is, or the one nearest to an integer. -/
def Number.toFloat : Number → Float
  | .int n => Float.ofInt n
  | .real x => x

/-- What a value there may or may not be is written as: nothing is `null`. -/
def optional {α : Type} (f : α → Json) : Option α → Json
  | some a => f a
  | none => .null

/-- A table as an object, the entries in their order. -/
def ofTable {α : Type} (f : α → Json) (t : Table α) : Json :=
  .object (t.entries.map fun (k, v) => (k, f v))

mutual

/-- The value with the members of every object in ascending order of their keys,
the last of several with one key. -/
def normal : Json → Json
  | .null => .null
  | .bool b => .bool b
  | .number n => .number n
  | .string s => .string s
  | .array elements => .array (normalElements elements)
  | .object members => .object (Table.ofList (normalMembers members)).entries

/-- Elements in normal form. -/
def normalElements : List Json → List Json
  | [] => []
  | v :: rest => normal v :: normalElements rest

/-- Members with their values in normal form, in the order that they have. -/
def normalMembers : List (String × Json) → List (String × Json)
  | [] => []
  | (k, v) :: rest => (k, normal v) :: normalMembers rest

end

end Json

end Placard
