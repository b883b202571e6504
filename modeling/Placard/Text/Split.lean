import Placard.Text.Blank

/-!
# Cutting and searching text

A text is cut at every occurrence of a separator or at the first one, and put
together again with the separator between the pieces. The searches answer in
bytes of UTF-8, the unit in which lengths on the wire are compared.
-/

namespace Placard.Text

/-- The pieces of a text between the occurrences of a separator. -/
def split (sep : Char) (s : List Char) : List (List Char) :=
  splitWhere (· == sep) s

/-- The pieces with the separator between every two of them. -/
def join (sep : Char) : List (List Char) → List Char
  | [] => []
  | [piece] => piece
  | piece :: rest => piece ++ sep :: join sep rest

/-- The two sides of the first occurrence of a separator. -/
def cut? (sep : Char) : List Char → Option (List Char × List Char)
  | [] => none
  | c :: s =>
    if c == sep then some ([], s)
    else (cut? sep s).map fun (l, r) => (c :: l, r)

/-- The rest of a text that begins with `lead`. -/
def after? : (lead : List Char) → List Char → Option (List Char)
  | [], s => some s
  | _ :: _, [] => none
  | l :: lead, c :: s => if l == c then after? lead s else none

/-- The rest of a text that ends with `tail`, without it. -/
def before? (tail s : List Char) : Option (List Char) :=
  (after? tail.reverse s.reverse).map List.reverse

/-- How many bytes a text takes in UTF-8. -/
def byteLength : List Char → Nat
  | [] => 0
  | c :: s => c.utf8Size + byteLength s

/-- The byte offset of the first occurrence of `needle`, counted from
`start`. -/
def findFrom? (needle : List Char) (start : Nat) : List Char → Option Nat
  | [] => if needle.isEmpty then some start else none
  | c :: s =>
    if needle.isPrefixOf (c :: s) then some start
    else findFrom? needle (start + c.utf8Size) s

/-- Whether a text occurs in another one. -/
def occursIn (needle s : List Char) : Bool :=
  (findFrom? needle 0 s).isSome

/-- The byte offsets of the occurrences of `needle` that are met when the
search goes on, after each one, behind its end; `skip` counts the characters of
the last one still to be passed. The needle is not empty. -/
def offsetsFrom (needle : List Char) (start skip : Nat) : List Char → List Nat
  | [] => []
  | c :: s =>
    if skip = 0 ∧ needle.isPrefixOf (c :: s) then
      start :: offsetsFrom needle (start + c.utf8Size) (needle.length - 1) s
    else offsetsFrom needle (start + c.utf8Size) (skip - 1) s

/-- The byte offsets of the occurrences of `needle`, none of which overlap. -/
def offsets (needle s : List Char) : List Nat :=
  if needle.isEmpty then [] else offsetsFrom needle 0 0 s

/-- ASCII letters in lower case, everything else as it is. -/
def lowercase (s : String) : String :=
  String.ofList (s.toList.map Char.toLower)

/-- Whether a character is one of the ten decimal digits. -/
def isDigit (c : Char) : Bool :=
  '0' ≤ c && c ≤ '9'

/-- The number that a row of ASCII digits denotes, read onto `acc`. -/
def natOfDigits (acc : Nat) (ds : List Char) : Nat :=
  ds.foldl (fun n d => 10 * n + (d.toNat - '0'.toNat)) acc

end Placard.Text
