import Placard.Text.Split

/-!
# Semantic versions

A version has three numbers, and may have identifiers of a pre-release and of a
build. Numbers have no leading zeros, and neither has an identifier of a
pre-release that consists of digits. The three numbers fit 64 bits.
-/

namespace Placard

open Text

/-- A version of a format: three numbers, and identifiers of what precedes a
release and of a build. -/
structure Version where
  major : Nat
  minor : Nat
  patch : Nat
  preRelease : List (List Char)
  build : List (List Char)
deriving DecidableEq

namespace Version

/-- A letter, a digit or a hyphen, all of ASCII. -/
def isIdentifierChar (c : Char) : Bool :=
  isDigit c || ('A' ≤ c && c ≤ 'Z') || ('a' ≤ c && c ≤ 'z') || c == '-'

/-- Digits with a superfluous zero in front. -/
def hasLeadingZero (s : List Char) : Bool :=
  match s with
  | '0' :: _ :: _ => s.all isDigit
  | _ => false

/-- A number of 64 bits without zeros in front. -/
def number? (s : List Char) : Option Nat :=
  if s.isEmpty || !s.all isDigit || hasLeadingZero s then none
  else
    let n := natOfDigits 0 s
    if n < UInt64.size then some n else none

/-- Identifiers between points, none of them empty. -/
def identifiers? (s : List Char) : Option (List (List Char)) :=
  let parts := split '.' s
  if parts.all fun p => !p.isEmpty && p.all isIdentifierChar then some parts
  else none

/-- The version that a text names. An identifier before a release has no zeros
in front if it is a number. -/
def ofText? (text : String) : Option Version := do
  let s := text.toList
  let (s, build) ← match cut? '+' s with
    | none => some (s, [])
    | some (s, b) => (identifiers? b).map fun b => (s, b)
  let (s, preRelease) ← match cut? '-' s with
    | none => some (s, [])
    | some (s, p) => (identifiers? p).map fun p => (s, p)
  if preRelease.any hasLeadingZero then none else
  match split '.' s with
  | [major, minor, patch] => do
    let major ← number? major
    let minor ← number? minor
    let patch ← number? patch
    some ⟨major, minor, patch, preRelease, build⟩
  | _ => none

end Version

end Placard
