import Gatehouse.Text.Pieces

/-!
# Percent-encoded text

A percent sign with two hexadecimal digits stands for an octet, written here as the character with
that code; a percent sign without them stands for itself. A query is a list of such pairs, in which a
plus sign stands for a blank.
-/

namespace Gatehouse.Text.Percent

def hexValue? (c : Char) : Option Nat :=
  if c.isDigit then some (c.toNat - 48)
  else if 'a' ≤ c ∧ c ≤ 'f' then some (c.toNat - 87)
  else if 'A' ≤ c ∧ c ≤ 'F' then some (c.toNat - 55)
  else none

def octet? (high low : Char) : Option Char := do
  let h ← hexValue? high
  let l ← hexValue? low
  some (Char.ofNat (16 * h + l))

def decode : List Char → List Char
  | '%' :: high :: low :: rest =>
    match octet? high low with
    | some c => c :: decode rest
    | none => '%' :: decode (high :: low :: rest)
  | c :: rest => c :: decode rest
  | [] => []

/-- A plus sign in a query stands for a blank. -/
def decodeQuery (cs : List Char) : List Char :=
  decode (cs.map fun c => if c = '+' then ' ' else c)

/-- The names and values of a query; empty pairs are skipped, and a missing value is empty. -/
def pairs (query : List Char) : List (List Char × List Char) :=
  ((pieces '&' query).filter (· ≠ [])).map fun pair =>
    match cut '=' pair with
    | some (name, value) => (decodeQuery name, decodeQuery value)
    | none => (decodeQuery pair, [])

end Gatehouse.Text.Percent
