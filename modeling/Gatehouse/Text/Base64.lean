/-!
# Base64 without padding

Three octets are written as four characters of an alphabet of sixty-four. A last group of one or two
octets is written as two or three characters whose unused bits are zero; a reader refuses any other
spelling.
-/

namespace Gatehouse.Text.Base64

/-- An alphabet: letters and digits, and two characters of its own. -/
structure Alphabet where
  /-- Stands for 62. -/
  sixtyTwo : Char
  /-- Stands for 63. -/
  sixtyThree : Char

/-- The alphabet of stored password hashes. -/
def standard : Alphabet := ⟨'+', '/'⟩

/-- The alphabet of tokens, safe in addresses and cookies. -/
def urlSafe : Alphabet := ⟨'-', '_'⟩

def Alphabet.char (a : Alphabet) (n : Nat) : Char :=
  if n < 26 then Char.ofNat (65 + n)
  else if n < 52 then Char.ofNat (71 + n)
  else if n < 62 then Char.ofNat (n - 4)
  else if n = 62 then a.sixtyTwo
  else a.sixtyThree

def Alphabet.value? (a : Alphabet) (c : Char) : Option Nat :=
  if c.isUpper then some (c.toNat - 65)
  else if c.isLower then some (c.toNat - 71)
  else if c.isDigit then some (c.toNat + 4)
  else if c = a.sixtyTwo then some 62
  else if c = a.sixtyThree then some 63
  else none

def encode (a : Alphabet) : List UInt8 → List Char
  | [] => []
  | [x] => [a.char (x.toNat / 4), a.char (x.toNat % 4 * 16)]
  | [x, y] =>
    [a.char (x.toNat / 4), a.char (x.toNat % 4 * 16 + y.toNat / 16), a.char (y.toNat % 16 * 4)]
  | x :: y :: z :: rest =>
    a.char (x.toNat / 4) :: a.char (x.toNat % 4 * 16 + y.toNat / 16)
      :: a.char (y.toNat % 16 * 4 + z.toNat / 64) :: a.char (z.toNat % 64) :: encode a rest

/-- Characters as octets, where they are the written form of some. -/
def decode (a : Alphabet) : List Char → Option (List UInt8)
  | [] => some []
  | [_] => none
  | [c, d] => do
    let m ← a.value? c
    let n ← a.value? d
    if n % 16 = 0 then
      some [UInt8.ofNat (m * 4 + n / 16)]
    else
      none
  | [c, d, e] => do
    let m ← a.value? c
    let n ← a.value? d
    let k ← a.value? e
    if k % 4 = 0 then
      some [UInt8.ofNat (m * 4 + n / 16), UInt8.ofNat (n % 16 * 16 + k / 4)]
    else
      none
  | c :: d :: e :: f :: rest => do
    let m ← a.value? c
    let n ← a.value? d
    let k ← a.value? e
    let l ← a.value? f
    let more ← decode a rest
    some (UInt8.ofNat (m * 4 + n / 16) :: UInt8.ofNat (n % 16 * 16 + k / 4)
      :: UInt8.ofNat (k % 4 * 64 + l) :: more)

def decodedLength (n : Nat) : Nat :=
  3 * (n / 4) + 3 * (n % 4) / 4

end Gatehouse.Text.Base64
