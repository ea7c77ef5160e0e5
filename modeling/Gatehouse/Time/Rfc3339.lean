import Gatehouse.Text.Blank
import Gatehouse.Text.Decimal
import Gatehouse.Text.Octets
import Gatehouse.Time.Instant

/-!
# Written instants

Instants are written in universal time as RFC 3339 has it. A year outside 0 to 9999 carries a sign. Of
the second's fraction either as many thousandfold steps are written as it needs, or always six digits;
the six-digit form has a fixed width and is what the store keeps. Two readers exist: the strict one for
what the store keeps, and a lenient one that lets blanks stand between the parts.
-/

namespace Gatehouse.Time.Rfc3339

open Gatehouse.Text

/-- Four digits, or a sign and at least four digits when the year needs more room. -/
def year (y : Int) : List Char :=
  if 0 ≤ y ∧ y ≤ 9999 then
    Decimal.padded 4 y.natAbs
  else
    (if y < 0 then '-' else '+') :: Decimal.padded 4 y.natAbs

def date (d : Date) : List Char :=
  year d.year ++ '-' :: Decimal.padded 2 d.month ++ '-' :: Decimal.padded 2 d.day

/-- Hour, minute and second; a leap second is the second after the one it belongs to. -/
def clock (secondOfDay : Nat) (leap : Bool) : List Char :=
  Decimal.padded 2 (secondOfDay / 3600) ++ ':' :: Decimal.padded 2 (secondOfDay / 60 % 60)
    ++ ':' :: Decimal.padded 2 (secondOfDay % 60 + if leap then 1 else 0)

/-- The fraction in the fewest steps of three digits that lose nothing. -/
def fraction (nanos : Nat) : List Char :=
  if nanos = 0 then []
  else if nanos % 1000000 = 0 then '.' :: Decimal.padded 3 (nanos / 1000000)
  else if nanos % 1000 = 0 then '.' :: Decimal.padded 6 (nanos / 1000)
  else '.' :: Decimal.padded 9 nanos

def writeWith (fractionOf : Nat → List Char) (t : Instant) : List Char :=
  date t.date ++ 'T' :: clock t.secondOfDay (Instant.second ≤ t.nanos)
    ++ fractionOf (t.nanos % Instant.second) ++ ['Z']

def write (t : Instant) : List Char :=
  writeWith fraction t

/-- The text that the store keeps: six digits of the fraction, whatever they are. -/
def stored (t : Instant) : List Char :=
  writeWith (fun nanos => '.' :: Decimal.padded 6 (nanos / 1000)) t

def text (t : Instant) : String :=
  String.ofList (write t)

def storedText (t : Instant) : String :=
  String.ofList (stored t)

inductive Fault
  | invalid
  | outOfRange
  | tooShort
  | tooLong
  deriving Repr, DecidableEq

def Fault.message : Fault → String
  | .invalid => "input contains invalid characters"
  | .outOfRange => "input is out of range"
  | .tooShort => "premature end of input"
  | .tooLong => "trailing input"

def expect (c : Char) : List Char → Except Fault (List Char)
  | [] => .error .tooShort
  | d :: rest => if d = c then .ok rest else .error .invalid

def oneDigit : List Char → Except Fault (Nat × List Char)
  | [] => .error .tooShort
  | c :: rest => if c.isDigit then .ok (Decimal.digitValue c, rest) else .error .invalid

def twoDigits (cs : List Char) : Except Fault (Nat × List Char) := do
  let (a, cs) ← oneDigit cs
  let (b, cs) ← oneDigit cs
  return (10 * a + b, cs)

def fourDigits (cs : List Char) : Except Fault (Nat × List Char) := do
  let (a, cs) ← twoDigits cs
  let (b, cs) ← twoDigits cs
  return (100 * a + b, cs)

/-- At least one digit after the point; those beyond the ninth do not count. -/
def nanoDigits (cs : List Char) : Except Fault (Nat × List Char) :=
  let (ds, rest) := Decimal.span cs
  match ds, rest with
  | [], [] => .error .tooShort
  | [], _ => .error .invalid
  | ds, rest =>
    let kept := ds.take 9
    .ok (Decimal.value kept * Nat.pow 10 (9 - kept.length), rest)

def optionalFraction : List Char → Except Fault (Nat × List Char)
  | '.' :: rest => nanoDigits rest
  | cs => .ok (0, cs)

/--
The distance from universal time, in seconds. What may stand between hours and minutes is for the
caller to say; both the hyphen and the minus sign are minus signs.
-/
def offset (between : List Char → Except Fault (List Char)) :
    List Char → Except Fault (Int × List Char)
  | [] => .error .tooShort
  | 'Z' :: rest => .ok (0, rest)
  | 'z' :: rest => .ok (0, rest)
  | c :: rest =>
    if c = '+' then signed 1 rest
    else if c = '-' ∨ c = '−' then signed (-1) rest
    else .error .invalid
where
  /-- Hours and minutes after the sign. -/
  signed (sign : Int) (cs : List Char) : Except Fault (Int × List Char) := do
    if octetCount cs < 2 then throw .tooShort
    let (hours, cs) ← twoDigits cs
    let cs ← between cs
    if octetCount cs < 2 then throw .tooShort
    let (tens, cs) ← oneDigit cs
    let (ones, cs) ← oneDigit cs
    if 6 ≤ tens then throw .outOfRange
    return (sign * (hours * 3600 + (10 * tens + ones) * 60), cs)

/--
The instant of a local date and time of day at a distance from universal time. Second 60 is the leap
second after second 59.
-/
def assemble (d : Date) (hour minute second nanos : Nat) (distance : Int) : Option Instant :=
  if d.Valid ∧ hour < 24 ∧ minute < 60 ∧ second ≤ 60 then
    let (second, nanos) := if second = 60 then (59, nanos + Instant.second) else (second, nanos)
    let t : Instant :=
      ⟨d.toDayNumber * Instant.day + hour * 3600 + minute * 60 + second - distance, nanos⟩
    if t.Representable then some t else none
  else
    none

def widestOffset : Int := (23 * 60 + 59) * 60

/-- Reads what the store keeps: fixed places, a `T` or one blank between date and time, nothing after. -/
def read (cs : List Char) : Except Fault Instant := do
  if octetCount cs < 19 then throw .tooShort
  let (y, cs) ← fourDigits cs
  let cs ← expect '-' cs
  let (month, cs) ← twoDigits cs
  let cs ← expect '-' cs
  let (day, cs) ← twoDigits cs
  let d : Date := ⟨y, month, day⟩
  if ¬ d.Valid then throw .outOfRange
  let cs ← separator cs
  let (hour, cs) ← twoDigits cs
  let cs ← expect ':' cs
  let (minute, cs) ← twoDigits cs
  let cs ← expect ':' cs
  let (second, cs) ← twoDigits cs
  let (nanos, cs) ← optionalFraction cs
  if 24 ≤ hour ∨ 60 ≤ minute ∨ 61 ≤ second then throw .outOfRange
  let (distance, cs) ← offset (expect ':') cs
  if cs ≠ [] then throw .tooLong
  if distance < -widestOffset ∨ widestOffset < distance then throw .outOfRange
  match assemble d hour minute second nanos distance with
  | some t => return t
  | none => throw .outOfRange
where
  /-- What stands between date and time. -/
  separator : List Char → Except Fault (List Char)
    | [] => .error .invalid
    | c :: rest => if c = 'T' ∨ c = 't' ∨ c = ' ' then .ok rest else .error .invalid

def looseNumber (most : Nat) (cs : List Char) : Option (Nat × List Char) :=
  let cs := trimStart cs
  let ds := (cs.take most).takeWhile Char.isDigit
  if ds = [] then none else some (Decimal.value ds, cs.drop ds.length)

def looseYear (cs : List Char) : Option (Int × List Char) :=
  match trimStart cs with
  | '-' :: rest => signed (-1) rest
  | '+' :: rest => signed 1 rest
  | cs => (looseNumber 4 cs).map fun (n, rest) => ((n : Int), rest)
where
  /-- The digits after the sign; a year with more than ten is beyond the calendar. -/
  signed (sign : Int) (cs : List Char) : Option (Int × List Char) :=
    let (ds, rest) := Decimal.span cs
    if ds = [] then none else some (sign * Decimal.value ds, rest)

def looseExpect (c : Char) (cs : List Char) : Option (List Char) :=
  match trimStart cs with
  | [] => none
  | d :: rest => if d = c then some rest else none

def universal? : List Char → Option (List Char)
  | u :: t :: c :: rest =>
    if u.toUpper = 'U' ∧ t.toUpper = 'T' ∧ c.toUpper = 'C' then some rest else none
  | _ => none

/-- Reads an instant with any blanks between its parts and around it. -/
def readLoose (cs : List Char) : Option Instant := do
  let (y, cs) ← looseYear cs
  let cs ← looseExpect '-' cs
  let (month, cs) ← looseNumber 2 cs
  let cs ← looseExpect '-' cs
  let (day, cs) ← looseNumber 2 cs
  let cs ← (read.separator cs).toOption
  let (hour, cs) ← looseNumber 2 cs
  let cs ← looseExpect ':' cs
  let (minute, cs) ← looseNumber 2 cs
  let cs ← looseExpect ':' cs
  let (second, cs) ← looseNumber 2 cs
  let (nanos, cs) ← (optionalFraction cs).toOption
  let cs := trimStart cs
  let (distance, cs) ←
    match universal? cs with
    | some rest => some (0, rest)
    | none => (offset (fun cs => .ok (cs.dropWhile fun c => c = ':' || isBlank c)) cs).toOption
  if trimStart cs ≠ [] then none
  if distance ≤ -Instant.day ∨ Instant.day ≤ distance then none
  assemble ⟨y, month, day⟩ hour minute second nanos distance

end Gatehouse.Time.Rfc3339
