import Placard.Json.Reader

/-!
# Decoding JSON

A decoder takes a value of the library from what a JSON text holds, or says why
it is none. Decoding follows the text, so of several faults the first one is
reported. Records are decoded from objects by `Fields`, which lists the members
a record has in the order in which it declares them. The members of the object
are looked at first, in their own order; only at its end are members missed, in
the order of declaration. A record may also be given as an array of its members
in that order, without the last ones if these have defaults. Members that a
record does not have are passed over, whatever they hold, and none of its own
may be repeated.
-/

namespace Placard.Json

open Text

/-- Why a JSON value is not the value that belongs in its place. -/
inductive DecodeError where
  /-- It is of another kind, a number out of range, or no JSON at all. -/
  | mismatch
  /-- A member that must be there is not in an object with the given text
  behind it. -/
  | missing (name : String) (behind : List Symbol)
  /-- A name that is none of those expected. -/
  | variant (got : String) (expected : List String)
  /-- A text or number that is refused for the reason given. -/
  | refused (reason : String)
deriving DecidableEq

namespace DecodeError

/-- Names between grave accents, as messages give them. -/
def namesText : List String → String
  | [] => "there are no variants"
  | [a] => "expected `" ++ a ++ "`"
  | [a, b] => "expected `" ++ a ++ "` or `" ++ b ++ "`"
  | names =>
    "expected one of " ++ ", ".intercalate (names.map fun n => "`" ++ n ++ "`")

/-- The message of an error, without the place in the text. -/
def message : DecodeError → String
  | mismatch => "invalid type"
  | missing name _ => "missing field `" ++ name ++ "`"
  | variant got expected =>
    "unknown variant `" ++ got ++ "`, " ++ namesText expected
  | refused reason => reason

end DecodeError

/-- A way to take an `α` from what a text holds. -/
abbrev Decoder (α : Type) := Source → Except DecodeError α

/-- What a whole text holds for a decoder, and nothing behind it. -/
def decodeText {α : Type} (d : Decoder α) (s : List Symbol) :
    Except DecodeError α := do
  let (source, rest?) := read s
  let a ← d source
  if rest?.any fun rest => (skipBlanks rest).isEmpty then .ok a
  else .error .mismatch

/-! ## Scalars -/

/-- A text. -/
def decodeString : Decoder String
  | .string s => .ok s
  | _ => .error .mismatch

/-- A truth value. -/
def decodeBool : Decoder Bool
  | .bool b => .ok b
  | _ => .error .mismatch

/-- Any number, as the double it is or becomes. -/
def decodeFloat : Decoder Float
  | .number n => .ok n.toFloat
  | _ => .error .mismatch

/-- A number within bounds that is written as an integer. -/
def decodeInt (lo hi : Int) : Decoder Int
  | .number (.int n) => if lo ≤ n ∧ n ≤ hi then .ok n else .error .mismatch
  | _ => .error .mismatch

/-- An integer of 32 bits without sign. -/
def decodeUInt32 : Decoder UInt32 := fun v =>
  (decodeInt 0 (UInt32.size - 1) v).map fun n => UInt32.ofNat n.toNat

/-- An integer of 32 bits. -/
def decodeInt32 : Decoder Int32 := fun v =>
  (decodeInt Int32.minValue.toInt Int32.maxValue.toInt v).map Int32.ofInt

/-- An integer of 64 bits without sign. -/
def decodeNat64 : Decoder Nat := fun v =>
  (decodeInt 0 (UInt64.size - 1) v).map Int.toNat

/-- One of several named values. A name may also stand as the only member of an
object, with nothing under it. -/
def decodeNamed {α : Type} (all : List α) (name : α → String)
    (isNothing : Source → Bool) : Decoder α := fun source =>
  let find (s : String) : Except DecodeError α :=
    match all.find? fun a => name a == s with
    | some a => .ok a
    | none => .error (.variant s (all.map name))
  match source with
  | .string s => find s
  | .object [(some s, content)] (some _) => do
    let a ← find s
    if isNothing content then .ok a else .error .mismatch
  | _ => .error .mismatch

/-- Whether `null` stands in the place of a value. -/
def Source.isNull : Source → Bool
  | null => true
  | _ => false

/-- Whether `null` or an empty object stands in the place of a value. -/
def Source.isEmpty : Source → Bool
  | null => true
  | object [] (some _) => true
  | _ => false

/-! ## Containers -/

/-- A value, or `null` for none. -/
def decodeOptional {α : Type} (d : Decoder α) : Decoder (Option α)
  | .null => .ok none
  | v => (d v).map some

/-- The elements of an array that is closed, each decoded in turn. -/
def decodeArray {α : Type} (d : Decoder α) : Decoder (List α)
  | .array elements behind? => do
    let as ← elements.mapM d
    if behind?.isSome then .ok as else .error .mismatch
  | _ => .error .mismatch

/-- A value under a name, if that is text. -/
def decodeEntry {α : Type} (d : Decoder α) (m : Option String × Source) :
    Except DecodeError (String × α) :=
  match m with
  | (some k, source) => (d source).map fun a => (k, a)
  | (none, _) => .error .mismatch

/-- An object with a value under every key; of several with one key the last
counts. -/
def decodeTable {α : Type} (d : Decoder α) : Decoder (Table α)
  | .object members behind? => do
    let entries ← members.mapM (decodeEntry d)
    if behind?.isSome then .ok (Table.ofList entries) else .error .mismatch
  | _ => .error .mismatch

/-! ## Records -/

/-- The value of the first member of the given name. -/
def member? (name : String) (members : List (Option String × Source)) :
    Option Source :=
  (members.find? fun m => m.1 == some name).map (·.2)

/-- A member that a record has. -/
structure Field where
  name : String
  /-- What its value must decode to. -/
  check : Source → Except DecodeError Unit
  /-- Whether it may be left out at the end of an array. -/
  hasDefault : Bool

/-- The members that a record has, in the order of declaration, and how it is
put together from those of an object with the given text behind it. -/
structure Fields (α : Type) where
  known : List Field
  build : List Symbol → List (Option String × Source) → Except DecodeError α

namespace Fields

variable {α β : Type}

/-- A member that has to be there. -/
def required (name : String) (d : Decoder α) : Fields α where
  known := [⟨name, fun s => (d s).map fun _ => (), false⟩]
  build behind members :=
    match member? name members with
    | some s => d s
    | none => .error (.missing name behind)

/-- A member that has a value of its own where it is left out. -/
def withDefault (name : String) (default : α) (d : Decoder α) : Fields α where
  known := [⟨name, fun s => (d s).map fun _ => (), true⟩]
  build _ members :=
    match member? name members with
    | some s => d s
    | none => .ok default

/-- A member that an object may leave out where there is nothing, but an array
may not. -/
def optional (name : String) (d : Decoder α) : Fields (Option α) where
  known := [⟨name, fun s => (decodeOptional d s).map fun _ => (), false⟩]
  build _ members :=
    match member? name members with
    | some s => decodeOptional d s
    | none => .ok none

instance : Applicative Fields where
  pure a := ⟨[], fun _ _ => .ok a⟩
  seq f x := ⟨f.known ++ (x ()).known, fun behind members => do
    let g ← f.build behind members
    let a ← (x ()).build behind members
    pure (g a)⟩

/-- Looks at the members of an object in turn. -/
def check (fields : Fields α) (seen : List String) :
    List (Option String × Source) → Except DecodeError Unit
  | [] => .ok ()
  | (none, _) :: _ => .error .mismatch
  | (some name, source) :: rest =>
    match fields.known.find? fun f => f.name == name with
    | none => fields.check seen rest
    | some f =>
      if name ∈ seen then .error .mismatch
      else do
        f.check source
        fields.check (name :: seen) rest

/-- The record that the members of an object make. -/
def ofMembers (fields : Fields α) (members : List (Option String × Source))
    (behind? : Option (List Symbol)) : Except DecodeError α := do
  fields.check [] members
  match behind? with
  | some behind => fields.build behind members
  | none => .error .mismatch

/-- The record that the elements of an array make. -/
def ofElements (fields : Fields α) (elements : List Source)
    (behind? : Option (List Symbol)) : Except DecodeError α := do
  let members := (fields.known.map fun f => some f.name).zip elements
  fields.check [] members
  let left := fields.known.drop elements.length
  match behind? with
  | some behind =>
    if elements.length ≤ fields.known.length ∧ left.all Field.hasDefault then
      fields.build behind members
    else .error .mismatch
  | none => .error .mismatch

/-- The record that an object makes, or an array of its members in the order of
declaration. -/
def decode (fields : Fields α) : Decoder α
  | .object members behind? => fields.ofMembers members behind?
  | .array elements behind? => fields.ofElements elements behind?
  | _ => .error .mismatch

end Fields

end Placard.Json
