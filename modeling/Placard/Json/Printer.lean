import Placard.Decimal.Layout
import Placard.Json.Value

/-!
# JSON text

Values are written without blanks, or for people to read with lines and
indentation. The canonical text of a value is that of its normal form, so it
does not depend on the order in which members were given: hashes are taken of
it.
-/

namespace Placard.Json

open Decimal

/-- Reals are written with the fewest digits that identify them, of two equally
near ones the even, always with a point or an exponent; positionally from 10^-5
up to 10^16. -/
def realLayout : Layout where
  tie := .toEven
  positional e := -5 ≤ e && e < 16
  pointZero := true
  nan := "null"
  inf := "null"

/-- A number. JSON has no text for what is not finite, and `null` stands for
it. -/
def Number.text : Number → String
  | .int n => intText n
  | .real x => if x.isFinite then realLayout.render x else "null"

/-- The letter that stands behind a backslash for a character that has one. -/
def letter? : Char → Option Char
  | '"' => some '"'
  | '\\' => some '\\'
  | '\x08' => some 'b'
  | '\x0c' => some 'f'
  | '\n' => some 'n'
  | '\r' => some 'r'
  | '\t' => some 't'
  | _ => none

/-- A hexadecimal digit, a letter being in lower case. -/
def hexDigit (n : Nat) : Char :=
  if n < 10 then Char.ofNat ('0'.toNat + n) else Char.ofNat ('a'.toNat + n - 10)

/-- A character inside a quoted string. -/
def quotedChar (c : Char) : List Char :=
  match letter? c with
  | some l => ['\\', l]
  | none =>
    if c.toNat < 0x20 then
      ['\\', 'u', '0', '0', hexDigit (c.toNat / 16), hexDigit (c.toNat % 16)]
    else [c]

/-- A text between quotation marks, with what may not stand there escaped. -/
def quoted (s : String) : String :=
  "\"" ++ String.ofList (s.toList.flatMap quotedChar) ++ "\""

mutual

/-- The text of a value, without blanks. -/
def compact : Json → String
  | .null => "null"
  | .bool true => "true"
  | .bool false => "false"
  | .number n => n.text
  | .string s => quoted s
  | .array elements => "[" ++ ",".intercalate (compactElements elements) ++ "]"
  | .object members =>
    "\x7b" ++ ",".intercalate (compactMembers members) ++ "\x7d"

/-- Elements one by one, without blanks. -/
def compactElements : List Json → List String
  | [] => []
  | v :: rest => compact v :: compactElements rest

/-- Members one by one, without blanks. -/
def compactMembers : List (String × Json) → List String
  | [] => []
  | (k, v) :: rest => (quoted k ++ ":" ++ compact v) :: compactMembers rest

end

/-- The blanks in front of a line at a depth of nesting. -/
def indentation (depth : Nat) : String :=
  String.ofList (List.replicate (2 * depth) ' ')

/-- Items on lines of their own between two brackets. -/
def bracketed (left right : String) (depth : Nat) (items : List String) :
    String :=
  if items.isEmpty then left ++ right
  else
    left ++ "\n" ++
      ",\n".intercalate (items.map fun i => indentation (depth + 1) ++
        i) ++ "\n" ++
      indentation depth ++ right

mutual

/-- The text of a value with every element and member on a line of its own, at a
depth of nesting. -/
def prettyAt (depth : Nat) : Json → String
  | .array elements =>
    bracketed "[" "]" depth (prettyElements (depth + 1) elements)
  | .object members =>
    bracketed "\x7b" "\x7d" depth (prettyMembers (depth + 1) members)
  | v => compact v

/-- Elements one by one, each laid out over lines. -/
def prettyElements (depth : Nat) : List Json → List String
  | [] => []
  | v :: rest => prettyAt depth v :: prettyElements depth rest

/-- Members one by one, each laid out over lines. -/
def prettyMembers (depth : Nat) : List (String × Json) → List String
  | [] => []
  | (k, v) :: rest =>
    (quoted k ++ ": " ++ prettyAt depth v) :: prettyMembers depth rest

end

/-- The text of a value as people read it. -/
def pretty (v : Json) : String :=
  prettyAt 0 v

/-- The one text of a value that its normal form has without blanks. -/
def canonical (v : Json) : String :=
  compact (normal v)

end Placard.Json
