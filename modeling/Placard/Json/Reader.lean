import Placard.Decimal.Reader
import Placard.Json.Source

/-!
# Reading JSON

A recursive reader over the symbols of a text. A step of it takes what stands at
the front and gives the rest, or no rest where the text goes wrong: then what
has been read so far is the answer. A budget that two steps a symbol cannot
exhaust bounds the recursion. Arrays and objects nested too deep are read
through but hold nothing. `read` is for those who decode a source and may pass
over parts of it; `ofText?` reads a value for any use.
-/

namespace Placard.Json

open Text Decimal

/-- The text behind the blanks that JSON allows between its tokens. -/
def skipBlanks (s : List Symbol) : List Symbol :=
  s.dropWhile fun c =>
    c == some ' ' || c == some '\n' || c == some '\t' || c == some '\r'

/-! ## Strings -/

/-- What a string is written with: a symbol, or a 16-bit unit by its number. -/
inductive Piece where
  | symbol (c : Symbol)
  | unit (n : Nat)

/-- The value of a hexadecimal digit in either case. -/
def hexValue? (c : Char) : Option Nat :=
  if '0' ≤ c ∧ c ≤ '9' then some (c.toNat - '0'.toNat)
  else if 'a' ≤ c ∧ c ≤ 'f' then some (c.toNat - 'a'.toNat + 10)
  else if 'A' ≤ c ∧ c ≤ 'F' then some (c.toNat - 'A'.toNat + 10)
  else none

/-- The 16-bit unit that four hexadecimal digits name. -/
def unit? (a b c d : Symbol) : Option Nat := do
  let a ← a.bind hexValue?
  let b ← b.bind hexValue?
  let c ← c.bind hexValue?
  let d ← d.bind hexValue?
  some (((a * 16 + b) * 16 + c) * 16 + d)

/-- The character that a letter behind a backslash stands for. -/
def unletter? : Char → Option Char
  | '"' => some '"'
  | '\\' => some '\\'
  | '/' => some '/'
  | 'b' => some '\x08'
  | 'f' => some '\x0c'
  | 'n' => some '\n'
  | 'r' => some '\r'
  | 't' => some '\t'
  | _ => none

/-- A character that may not stand in a string as it is. -/
def isControl (c : Symbol) : Bool :=
  c.any fun c => c.toNat < 0x20

/-- The pieces of a string whose opening quote has been passed, behind those
before them in reverse, and the rest. -/
def pieces? (before : List Piece) :
    List Symbol → Option (List Piece × List Symbol)
  | [] => none
  | some '"' :: s => some (before.reverse, s)
  | some '\\' :: some 'u' :: a :: b :: c :: d :: s =>
    match unit? a b c d with
    | some n => pieces? (.unit n :: before) s
    | none => none
  | some '\\' :: c :: s =>
    match c.bind unletter? with
    | some c => pieces? (.symbol (some c) :: before) s
    | none => none
  | c :: s => if isControl c then none else pieces? (.symbol c :: before) s

/-- Whether a number of 16 bits is the first of a surrogate pair. -/
def isHigh (n : Nat) : Bool :=
  0xD800 ≤ n && n < 0xDC00

/-- Whether a number of 16 bits is the second of a surrogate pair. -/
def isLow (n : Nat) : Bool :=
  0xDC00 ≤ n && n < 0xE000

/-- The characters that pieces stand for, behind those before them in reverse. A
surrogate pair is one character; half a pair is none, and neither is a byte. -/
def characters? (before : List Char) : List Piece → Option (List Char)
  | [] => some before.reverse
  | .symbol none :: _ => none
  | .symbol (some c) :: ps => characters? (c :: before) ps
  | .unit high :: .unit low :: ps =>
    if isHigh high && isLow low then
      let c := Char.ofNat (0x10000 + (high - 0xD800) * 0x400 + (low - 0xDC00))
      characters? (c :: before) ps
    else if isHigh high || isLow high then none
    else characters? (Char.ofNat high :: before) (.unit low :: ps)
  | .unit n :: ps =>
    if isHigh n || isLow n then none
    else characters? (Char.ofNat n :: before) ps

/-- A string whose opening quote has been passed, if it is text, and the
rest. -/
def string? (s : List Symbol) : Option (Option String × List Symbol) :=
  (pieces? [] s).map fun (ps, s) => ((characters? [] ps).map String.ofList, s)

/-! ## Numbers -/

/-- A number as it is written. -/
structure Literal where
  negative : Bool
  whole : List Char
  fraction? : Option (List Char)
  exponent? : Option Int
deriving DecidableEq

/-- The digits at the front, and the rest. -/
def digits : List Symbol → List Char × List Symbol
  | some c :: s =>
    if isDigit c then
      let (ds, s) := digits s
      (c :: ds, s)
    else ([], some c :: s)
  | s => ([], s)

/-- The digits at the front if there are any, and the rest. -/
def digits? (s : List Symbol) : Option (List Char × List Symbol) :=
  match digits s with
  | ([], _) => none
  | (ds, s) => some (ds, s)

/-- The whole part of a number: digits, of which only a lone one is zero in
front. -/
def whole? : List Symbol → Option (List Char × List Symbol)
  | some '0' :: s => some (['0'], s)
  | s => digits? s

/-- A point and digits, if there is a point. -/
def fraction? : List Symbol → Option (Option (List Char) × List Symbol)
  | some '.' :: s => (digits? s).map fun (ds, s) => (some ds, s)
  | s => some (none, s)

/-- The digits of an exponent behind its mark, with or without a sign. -/
def signedExponent? : List Symbol → Option (Int × List Symbol)
  | some '-' :: s =>
    (digits? s).map fun (ds, s) => (-(natOfDigits 0 ds : Int), s)
  | some '+' :: s =>
    (digits? s).map fun (ds, s) => ((natOfDigits 0 ds : Int), s)
  | s => (digits? s).map fun (ds, s) => ((natOfDigits 0 ds : Int), s)

/-- A mark and an exponent, if there is a mark. -/
def exponent? : List Symbol → Option (Option Int × List Symbol)
  | some 'e' :: s => (signedExponent? s).map fun (e, s) => (some e, s)
  | some 'E' :: s => (signedExponent? s).map fun (e, s) => (some e, s)
  | s => some (none, s)

/-- A minus sign, if there is one. -/
def sign : List Symbol → Bool × List Symbol
  | some '-' :: s => (true, s)
  | s => (false, s)

/-- The number at the front, and the rest. -/
def literal? (s : List Symbol) : Option (Literal × List Symbol) := do
  let (negative, s) := sign s
  let (whole, s) ← whole? s
  let (fraction, s) ← fraction? s
  let (exponent, s) ← exponent? s
  some (⟨negative, whole, fraction, exponent⟩, s)

/-- The number of a whole literal below 2^64: an integer where it fits 64 bits.
The sign of zero makes it a real, as integers have none. -/
def integer (negative : Bool) (n : Nat) : Number :=
  if negative then
    if 0 < n ∧ n ≤ Nat.pow 2 63 then .int (-n) else .real (-(Float.ofNat n))
  else .int n

/-- The number that a literal denotes, unless it is beyond every double. Of the
digits those count that fit 64 bits; further ones of the whole part count as
zeros, and further ones of the fraction not at all. -/
def Literal.number? (l : Literal) : Option Number :=
  let (n, beyond) := fit 0 l.whole
  if l.fraction? = none ∧ l.exponent? = none ∧ beyond = [] then
    some (integer l.negative n)
  else
    let fraction := l.fraction?.getD []
    let (n, dropped) := fit n fraction
    let kept := fraction.length - dropped.length
    (scaled? (Float.ofNat n) (beyond.length - kept + l.exponent?.getD 0)).map
    fun x =>
      .real (if l.negative then -x else x)

/-! ## Values -/

mutual

/-- What stands at the front of a text in the place of a value, and the rest,
unless the text goes wrong before its end. -/
def value : (fuel depth : Nat) → List Symbol → Source × Option (List Symbol)
  | 0, _, _ => (.unreadable, none)
  | fuel + 1, depth, s =>
    match skipBlanks s with
    | some 'n' :: some 'u' :: some 'l' :: some 'l' :: s => (.null, some s)
    | some 't' :: some 'r' :: some 'u' :: some 'e' :: s => (.bool true, some s)
    | some 'f' :: some 'a' :: some 'l' :: some 's' :: some 'e' :: s =>
      (.bool false, some s)
    | some '"' :: s =>
      match string? s with
      | some (some t, s) => (.string t, some s)
      | some (none, s) => (.unreadable, some s)
      | none => (.unreadable, none)
    | some '[' :: s =>
      match skipBlanks s with
      | some ']' :: s => (.within depth (.array [] (some s)), some s)
      | s =>
        let (vs, rest?) := elements fuel (depth - 1) s
        (.within depth (.array vs rest?), rest?)
    | some '\x7b' :: s =>
      match skipBlanks s with
      | some '\x7d' :: s => (.within depth (.object [] (some s)), some s)
      | s =>
        let (ms, rest?) := members fuel (depth - 1) s
        (.within depth (.object ms rest?), rest?)
    | s =>
      match literal? s with
      | some (l, s) =>
        match l.number? with
        | some n => (.number n, some s)
        | none => (.unreadable, some s)
      | none => (.unreadable, none)

/-- The elements up to the bracket that closes the array, and the rest. -/
def elements :
    (fuel depth : Nat) → List Symbol → List Source × Option (List Symbol)
  | 0, _, _ => ([], none)
  | fuel + 1, depth, s =>
    match value fuel depth s with
    | (v, none) => ([v], none)
    | (v, some s) =>
      match skipBlanks s with
      | some ']' :: s => ([v], some s)
      | some ',' :: s =>
        let (vs, rest?) := elements fuel depth s
        (v :: vs, rest?)
      | _ => ([v], none)

/-- The members up to the brace that closes the object, and the rest. -/
def members : (fuel depth : Nat) → List Symbol →
    List (Option String × Source) × Option (List Symbol)
  | 0, _, _ => ([], none)
  | fuel + 1, depth, s =>
    match skipBlanks s with
    | some '"' :: s =>
      match string? s with
      | none => ([], none)
      | some (k?, s) =>
        match skipBlanks s with
        | some ':' :: s =>
          match value fuel depth s with
          | (v, none) => ([(k?, v)], none)
          | (v, some s) =>
            match skipBlanks s with
            | some '\x7d' :: s => ([(k?, v)], some s)
            | some ',' :: s =>
              let (ms, rest?) := members fuel depth s
              ((k?, v) :: ms, rest?)
            | _ => ([(k?, v)], none)
        | _ => ([], none)
    | _ => ([], none)

end

/-- The deepest nesting of arrays and objects that is read. -/
def maxDepth : Nat := 127

/-- What stands at the front of a text, and the rest. -/
def read (s : List Symbol) : Source × Option (List Symbol) :=
  value (2 * s.length + 2) maxDepth s

/-- The value that a whole text denotes, in normal form. -/
def ofText? (text : String) : Option Json :=
  match read (symbols text) with
  | (source, some rest) =>
    if (skipBlanks rest).isEmpty then source.toJson?.map normal else none
  | (_, none) => none

end Placard.Json
