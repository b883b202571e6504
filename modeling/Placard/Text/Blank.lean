/-!
# Blank characters

Which characters count as blank, and the two things the library does with
them: it takes them off both ends of a text, and it cuts a text into the words
that stand between them. The class is Unicode's White_Space property, 25 code
points in ten ranges, so a no-break space or an ideographic space is as blank
as a space bar's.
-/

namespace Placard.Text

/-- The closed ranges of code points with the White_Space property, ascending
and apart. -/
def blankRanges : List (Nat × Nat) :=
  [(0x09, 0x0D), (0x20, 0x20), (0x85, 0x85), (0xA0, 0xA0), (0x1680, 0x1680),
   (0x2000, 0x200A), (0x2028, 0x2029), (0x202F, 0x202F), (0x205F, 0x205F),
   (0x3000, 0x3000)]

/-- A character is blank when its code point lies in one of the ranges. -/
def isBlank (c : Char) : Bool :=
  blankRanges.any fun r => r.1 ≤ c.toNat && c.toNat ≤ r.2

/-- What is left of a text when blanks are taken off both ends. -/
def trimChars (s : List Char) : List Char :=
  ((s.dropWhile isBlank).reverse.dropWhile isBlank).reverse

@[inherit_doc trimChars]
def trim (s : String) : String :=
  String.ofList (trimChars s.toList)

/-- A text with nothing but blanks in it, the empty text included. -/
def allBlank (s : String) : Bool :=
  s.toList.all isBlank

/-- The pieces of a text between the characters that satisfy `p`, empty pieces
kept: one more piece than there are such characters. -/
def splitWhere (p : Char → Bool) : List Char → List (List Char)
  | [] => [[]]
  | c :: s =>
    if p c then [] :: splitWhere p s
    else match splitWhere p s with
      | [] => [[c]]
      | piece :: rest => (c :: piece) :: rest

/-- The maximal runs of characters that are not blank. -/
def words (s : List Char) : List (List Char) :=
  (splitWhere isBlank s).filter fun w => !w.isEmpty

end Placard.Text
