import Placard.Json.Value

/-!
# What a text holds

A JSON text as far as it can be read. A part of it may be well formed and yet
hold no value, such as a number beyond every double; a reader who has no use for
that part need not mind. And where the text breaks off or goes wrong, all that
stands before is there to be read, in arrays and objects that are not closed.
A value is a source without such parts.

The text may come as bytes that should be UTF-8 and may not be. Every character
of them is a symbol, and so is every byte that belongs to none.
-/

namespace Placard

namespace Text

/-- A character, or a byte that is part of none. -/
abbrev Symbol := Option Char

/-- The symbols of a text: its characters. -/
def symbols (text : String) : List Symbol :=
  text.toList.map some

/-- What bytes hold from a place on, behind what stands before it in reverse. -/
def symbolsFrom (before : List Symbol) (bytes : ByteArray) (i : Nat) :
    List Symbol :=
  if i < bytes.size then
    match bytes.utf8DecodeChar? i with
    | some c => symbolsFrom (some c :: before) bytes (i + c.utf8Size)
    | none => symbolsFrom (none :: before) bytes (i + 1)
  else before.reverse
termination_by bytes.size - i
decreasing_by
  · have := c.utf8Size_pos
    omega
  · omega

/-- The symbols of bytes: those of the text that they are in UTF-8, or else one
for each character and each byte that belongs to none. -/
def symbolsOfBytes (bytes : ByteArray) : List Symbol :=
  match String.fromUTF8? bytes with
  | some text => symbols text
  | none => symbolsFrom [] bytes 0

end Text

namespace Json

open Text

/-- What stands in a text in the place of a value. -/
inductive Source where
  | null
  | bool (b : Bool)
  | number (n : Number)
  | string (s : String)
  /-- The elements, and the text behind the closing bracket if there is one. -/
  | array (elements : List Source) (behind? : Option (List Symbol))
  /-- The members, and the text behind the closing brace if there is one. A name
  that is no text is left out. -/
  | object (members : List (Option String × Source))
      (behind? : Option (List Symbol))
  /-- Nothing that has a value. -/
  | unreadable

namespace Source

/-- An array or object if so much nesting is still allowed. -/
def within (depth : Nat) (s : Source) : Source :=
  if depth = 0 then unreadable else s

/-! ## Values -/

mutual

/-- A value as a source. It comes from no text, so nothing stands behind what is
closed. -/
def ofJson : Json → Source
  | .null => null
  | .bool b => bool b
  | .number n => number n
  | .string s => string s
  | .array elements => array (ofElements elements) (some [])
  | .object members => object (ofMembers members) (some [])

/-- The elements of an array as sources. -/
def ofElements : List Json → List Source
  | [] => []
  | v :: rest => ofJson v :: ofElements rest

/-- The members of an object as sources. -/
def ofMembers : List (String × Json) → List (Option String × Source)
  | [] => []
  | (k, v) :: rest => (some k, ofJson v) :: ofMembers rest

end

mutual

/-- The value that a source holds if every part of it can be read. -/
def toJson? : Source → Option Json
  | null => some .null
  | bool b => some (.bool b)
  | number n => some (.number n)
  | string s => some (.string s)
  | array elements (some _) => (elementsToJson? elements).map .array
  | object members (some _) => (membersToJson? members).map .object
  | array _ none => none
  | object _ none => none
  | unreadable => none

/-- The values of elements, if all of them have one. -/
def elementsToJson? : List Source → Option (List Json)
  | [] => some []
  | s :: rest => do
    let v ← toJson? s
    let vs ← elementsToJson? rest
    some (v :: vs)

/-- The values of members, if all of them and their names have one. -/
def membersToJson? :
    List (Option String × Source) → Option (List (String × Json))
  | [] => some []
  | (k?, s) :: rest => do
    let k ← k?
    let v ← toJson? s
    let ms ← membersToJson? rest
    some ((k, v) :: ms)

end

end Source

end Json

end Placard
