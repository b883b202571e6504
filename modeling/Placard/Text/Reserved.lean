import Placard.Text.Split

/-!
# Escaping what the wire reserves

Eight characters separate and mark commands on the wire. Free text reaches it
with each of them written as a percent sign and two characters, so that none
of the seven separators, and no percent sign without a code behind it, can come
from content. Reading a code back is exact; a percent sign that starts no code
stands for itself.
-/

namespace Placard.Text

/-- The two characters that follow the percent sign in the code of a reserved
character. -/
def code? : Char → Option (Char × Char)
  | '%' => some ('2', '5')
  | '!' => some ('2', '1')
  | '/' => some ('2', 'F')
  | ',' => some ('2', 'C')
  | '$' => some ('2', '4')
  | ':' => some ('3', 'A')
  | ' ' => some ('2', '0')
  | '\n' => some ('0', 'A')
  | _ => none

/-- The reserved character that a code stands for. -/
def ofCode? : Char → Char → Option Char
  | '2', '5' => some '%'
  | '2', '1' => some '!'
  | '2', 'F' => some '/'
  | '2', 'C' => some ','
  | '2', '4' => some '$'
  | '3', 'A' => some ':'
  | '2', '0' => some ' '
  | '0', 'A' => some '\n'
  | _, _ => none

/-- Every reserved character written as its code. -/
def escapeChars : List Char → List Char
  | [] => []
  | c :: s =>
    match code? c with
    | some (a, b) => '%' :: a :: b :: escapeChars s
    | none => c :: escapeChars s

/-- Every code read back as its character. -/
def unescapeChars : List Char → List Char
  | [] => []
  | [c] => [c]
  | [c, d] => [c, d]
  | c :: a :: b :: s =>
    match if c = '%' then ofCode? a b else none with
    | some r => r :: unescapeChars s
    | none => c :: unescapeChars (a :: b :: s)

@[inherit_doc escapeChars]
def escape (s : String) : String :=
  String.ofList (escapeChars s.toList)

@[inherit_doc unescapeChars]
def unescape (s : String) : String :=
  String.ofList (unescapeChars s.toList)

end Placard.Text
