/-!
# Base 64

Three bytes are written as four characters of a 64-letter alphabet, and the
last group is filled with `=`. Reading accepts exactly what writing produces: a
length that is a multiple of four, the filling where it belongs, and no bits set
that no byte would hold.
-/

namespace Placard.Digest

/-- The letter of six bits. -/
def base64Letter (n : Nat) : Char :=
  if n < 26 then Char.ofNat (65 + n)
  else if n < 52 then Char.ofNat (97 + (n - 26))
  else if n < 62 then Char.ofNat (48 + (n - 52))
  else if n = 62 then '+' else '/'

/-- The six bits of a letter. -/
def base64Value? (c : Char) : Option Nat :=
  if 'A' ≤ c ∧ c ≤ 'Z' then some (c.toNat - 65)
  else if 'a' ≤ c ∧ c ≤ 'z' then some (c.toNat - 97 + 26)
  else if '0' ≤ c ∧ c ≤ '9' then some (c.toNat - 48 + 52)
  else if c = '+' then some 62
  else if c = '/' then some 63
  else none

/-- The letters of bytes: four for every three, and equals signs in the place of
those that a last group of fewer does not fill. -/
def toBase64 : List UInt8 → List Char
  | [] => []
  | [a] =>
    let n := a.toNat
    [base64Letter (n / 4), base64Letter (n % 4 * 16), '=', '=']
  | [a, b] =>
    let n := a.toNat * 256 + b.toNat
    [base64Letter (n / 1024), base64Letter (n / 16 % 64),
     base64Letter (n % 16 * 4), '=']
  | a :: b :: c :: rest =>
    let n := (a.toNat * 256 + b.toNat) * 256 + c.toNat
    base64Letter (n / 262144) :: base64Letter (n / 4096 % 64) ::
      base64Letter (n / 64 % 64) :: base64Letter (n % 64) :: toBase64 rest

/-- The bytes of letters. Bits of the last letter that no byte takes must be
zero. -/
def ofBase64? : List Char → Option (List UInt8)
  | [] => some []
  | [w, x, '=', '='] => do
    let w ← base64Value? w
    let x ← base64Value? x
    if x % 16 = 0 then some [UInt8.ofNat (w * 4 + x / 16)] else none
  | [w, x, y, '='] => do
    let w ← base64Value? w
    let x ← base64Value? x
    let y ← base64Value? y
    if y % 4 = 0 then
      let n := (w * 64 + x) * 16 + y / 4
      some [UInt8.ofNat (n / 256), UInt8.ofNat (n % 256)]
    else none
  | w :: x :: y :: z :: rest => do
    let w ← base64Value? w
    let x ← base64Value? x
    let y ← base64Value? y
    let z ← base64Value? z
    let n := ((w * 64 + x) * 64 + y) * 64 + z
    let bytes ← ofBase64? rest
    some (UInt8.ofNat (n / 65536) :: UInt8.ofNat (n / 256 % 256) ::
      UInt8.ofNat (n % 256) :: bytes)
  | _ => none

end Placard.Digest
