import Gatehouse.Text.Decimal
import Gatehouse.Text.Percent

/-!
# Network addresses

The address of the other side, as a connection reports it, and its canonical text. In an address of the
newer kind the longest run of zeros is left out, the first of several as long, and one that stands for
an address of the older kind shows it.
-/

namespace Gatehouse.Http

open Gatehouse.Text

inductive Address
  | v4 (octets : List Nat)
  | v6 (groups : List Nat)
  deriving Repr, DecidableEq

namespace Address

/-- A number up to 255 without a superfluous zero. -/
def octet? (cs : List Char) : Option Nat :=
  if cs.length ≤ 3 ∧ (cs.head? ≠ some '0' ∨ cs.length = 1) then
    (Decimal.nat? cs).filter (· < 256)
  else
    none

def octets? (cs : List Char) : Option (List Nat) :=
  let parts := pieces '.' cs
  if parts.length = 4 then parts.mapM octet? else none

def group? (cs : List Char) : Option Nat :=
  if cs = [] ∨ 4 < cs.length then none
  else cs.foldlM (fun n c => (Percent.hexValue? c).map (16 * n + ·)) 0

/-- Groups between colons; the last may be four octets that stand for two groups. -/
def groups? (cs : List Char) : Option (List Nat) :=
  if cs = [] then some [] else go (pieces ':' cs)
where
  /-- The groups of the pieces. -/
  go : List (List Char) → Option (List Nat)
    | [] => some []
    | [last] =>
      match octets? last with
      | some [a, b, c, d] => some [256 * a + b, 256 * c + d]
      | _ => (group? last).map ([·])
    | piece :: rest => do
      let g ← group? piece
      let gs ← go rest
      some (g :: gs)

def cutGap : List Char → Option (List Char × List Char)
  | ':' :: ':' :: rest => some ([], rest)
  | c :: rest => (cutGap rest).map fun (before, after) => (c :: before, after)
  | [] => none

/-- Eight groups; two colons in a row stand for the zeros that are missing. -/
def eightGroups? (cs : List Char) : Option (List Nat) :=
  match cutGap cs with
  | some (before, after) => do
    let before ← groups? before
    let after ← groups? after
    if before.length + after.length < 8 then
      some (before ++ List.replicate (8 - before.length - after.length) 0 ++ after)
    else
      none
  | none => (groups? cs).filter (·.length = 8)

/-- A port, of which only the form matters. -/
def isPort (cs : List Char) : Bool :=
  match Decimal.nat? cs with
  | some n => n < 65536
  | none => false

def ofSocket? (s : String) : Option Address :=
  match s.toList with
  | '[' :: rest => do
    let (inside, after) ← cut ']' rest
    let inside :=
      match cut '%' inside with
      | some (address, _) => address
      | none => inside
    match after with
    | ':' :: port => if isPort port then (eightGroups? inside).map v6 else none
    | _ => none
  | cs => do
    let (address, port) ← cut ':' cs
    if isPort port then (octets? address).map v4 else none

def hexDigits (n : Nat) : List Char :=
  if _h : n < 16 then
    [Nat.digitChar n]
  else
    hexDigits (n / 16) ++ [Nat.digitChar (n % 16)]
  termination_by n
  decreasing_by omega

def zeroRuns : List Nat → List Nat
  | [] => []
  | g :: gs =>
    let runs := zeroRuns gs
    (if g = 0 then runs.headD 0 + 1 else 0) :: runs

/-- Where the longest run of zeros starts, if it has two. -/
def longestRun? (groups : List Nat) : Option (Nat × Nat) :=
  let runs := zeroRuns groups
  let longest := runs.foldl max 0
  if longest < 2 then none else some (runs.idxOf longest, longest)

def groupText (groups : List Nat) : List Char :=
  [':'].intercalate (groups.map hexDigits)

def octetText (octets : List Nat) : List Char :=
  ['.'].intercalate (octets.map Decimal.digits)

def write : Address → List Char
  | v4 octets => octetText octets
  | v6 groups =>
    match groups with
    | [0, 0, 0, 0, 0, 0xffff, high, low] =>
      [':', ':', 'f', 'f', 'f', 'f', ':']
        ++ octetText [high / 256, high % 256, low / 256, low % 256]
    | _ =>
      match longestRun? groups with
      | some (start, length) =>
        groupText (groups.take start) ++ [':', ':'] ++ groupText (groups.drop (start + length))
      | none => groupText groups

def text (a : Address) : String :=
  String.ofList a.write

end Address

end Gatehouse.Http
