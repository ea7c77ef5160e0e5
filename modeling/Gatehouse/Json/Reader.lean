import Gatehouse.Text.Decimal
import Gatehouse.Time.Rfc3339

/-!
# Reading typed values from JSON text

A reader takes a value of one type from the front of a text and leaves the rest. It goes through the
text from left to right and stops at the first thing that is wrong: text that is no JSON, a value that
is not of the type asked for, or the end of the text before the value is complete.
-/

namespace Gatehouse.Json

open Gatehouse.Text Gatehouse.Time

inductive Fault
  /-- The text is no JSON. -/
  | malformed
  /-- A value is not of the type asked for. -/
  | mismatch
  /-- The text ends too early. -/
  | unfinished
  deriving Repr, DecidableEq

/-- Takes a value from the front of a text. -/
abbrev Reader (α : Type) := List Char → Except Fault (α × List Char)

def isSpace (c : Char) : Bool :=
  c = ' ' || c = '\n' || c = '\t' || c = '\r'

def skipSpace (cs : List Char) : List Char :=
  cs.dropWhile isSpace

abbrev openBrace : Char := Char.ofNat 123

abbrev closeBrace : Char := Char.ofNat 125

def word : List Char → List Char → Except Fault (List Char)
  | [], cs => .ok cs
  | _ :: _, [] => .error .unfinished
  | w :: ws, c :: cs => if c = w then word ws cs else .error .malformed

/-! ## Strings -/

def hexValue? (c : Char) : Option Nat :=
  if c.isDigit then some (c.toNat - 48)
  else if 'a' ≤ c ∧ c ≤ 'f' then some (c.toNat - 87)
  else if 'A' ≤ c ∧ c ≤ 'F' then some (c.toNat - 55)
  else none

def fourHex? : List Char → Option (Nat × List Char)
  | a :: b :: c :: d :: rest => do
    let a ← hexValue? a
    let b ← hexValue? b
    let c ← hexValue? c
    let d ← hexValue? d
    some (((a * 16 + b) * 16 + c) * 16 + d, rest)
  | _ => none

/-- Four hexadecimal digits that must stand next; with fewer than four octets left the text has ended. -/
def fourHex (cs : List Char) : Except Fault (Nat × List Char) :=
  match fourHex? cs with
  | some r => .ok r
  | none => .error (if octetCount cs < 4 then .unfinished else .malformed)

def isLeading (n : Nat) : Bool := 0xD800 ≤ n && n ≤ 0xDBFF

def isTrailing (n : Nat) : Bool := 0xDC00 ≤ n && n ≤ 0xDFFF

/-- The second half of a pair of code units, and the character of the pair. -/
def secondHalf (leading : Nat) : List Char → Except Fault (Char × List Char)
  | [] => .error .unfinished
  | '\\' :: [] => .error .unfinished
  | '\\' :: 'u' :: rest => do
    let (trailing, rest) ← fourHex rest
    if isTrailing trailing then
      return (Char.ofNat (0x10000 + (leading - 0xD800) * 1024 + (trailing - 0xDC00)), rest)
    else
      throw .malformed
  | _ => .error .malformed

def shortEscape? (c : Char) : Option Char :=
  if c = '"' ∨ c = '\\' ∨ c = '/' then some c
  else if c = 'b' then some (Char.ofNat 8)
  else if c = 'f' then some (Char.ofNat 12)
  else if c = 'n' then some (Char.ofNat 10)
  else if c = 'r' then some (Char.ofNat 13)
  else if c = 't' then some (Char.ofNat 9)
  else none

def escaped : List Char → Except Fault (Char × List Char)
  | [] => .error .unfinished
  | 'u' :: rest => do
    let (n, rest) ← fourHex rest
    if isTrailing n then throw .malformed
    else if isLeading n then secondHalf n rest
    else return (Char.ofNat n, rest)
  | c :: rest =>
    match shortEscape? c with
    | some e => .ok (e, rest)
    | none => .error .malformed

theorem fourHex?_shorter {cs rest : List Char} {n : Nat} (h : fourHex? cs = some (n, rest)) :
    rest.length < cs.length := by
  unfold fourHex? at h
  split at h
  · simp only [Option.bind_eq_bind, Option.bind_eq_some_iff, Option.some.injEq,
      Prod.mk.injEq] at h
    obtain ⟨_, _, _, _, _, _, _, _, _, rfl⟩ := h
    simp only [List.length_cons]
    omega
  · simp at h

theorem fourHex_shorter {cs rest : List Char} {n : Nat} (h : fourHex cs = .ok (n, rest)) :
    rest.length < cs.length := by
  unfold fourHex at h
  split at h
  · next r hr => cases h; exact fourHex?_shorter hr
  · simp at h

theorem secondHalf_shorter {n : Nat} {cs rest : List Char} {c : Char}
    (h : secondHalf n cs = .ok (c, rest)) : rest.length < cs.length := by
  unfold secondHalf at h
  split at h
  · simp at h
  · simp at h
  · next tail =>
    cases ht : fourHex tail with
    | error e => simp [ht, bind, Except.bind] at h
    | ok r =>
      obtain ⟨m, tail'⟩ := r
      simp only [ht, bind, Except.bind] at h
      split at h
      · simp only [pure, Except.pure, Except.ok.injEq, Prod.mk.injEq] at h
        obtain ⟨_, rfl⟩ := h
        have := fourHex_shorter ht
        simp only [List.length_cons]
        omega
      · simp [throw, throwThe, MonadExceptOf.throw] at h
  · simp at h

theorem escaped_shorter {cs rest : List Char} {c : Char} (h : escaped cs = .ok (c, rest)) :
    rest.length < cs.length := by
  unfold escaped at h
  split at h
  · simp at h
  · next tail =>
    cases ht : fourHex tail with
    | error e => simp [ht, bind, Except.bind] at h
    | ok r =>
      obtain ⟨m, tail'⟩ := r
      have hs := fourHex_shorter ht
      simp only [ht, bind, Except.bind] at h
      split at h
      · simp [throw, throwThe, MonadExceptOf.throw] at h
      · split at h
        · have := secondHalf_shorter h
          simp only [List.length_cons]
          omega
        · simp only [pure, Except.pure, Except.ok.injEq, Prod.mk.injEq] at h
          obtain ⟨_, rfl⟩ := h
          simp only [List.length_cons]
          omega
  · split at h
    · simp only [Except.ok.injEq, Prod.mk.injEq] at h
      obtain ⟨_, rfl⟩ := h
      simp
    · simp at h

def stringBody (cs : List Char) : Except Fault (List Char × List Char) :=
  match cs with
  | [] => .error .unfinished
  | '"' :: rest => .ok ([], rest)
  | '\\' :: rest =>
    match _h : escaped rest with
    | .error e => .error e
    | .ok (c, rest') => (stringBody rest').map fun (s, r) => (c :: s, r)
  | c :: rest =>
    if c.toNat < 32 then .error .malformed
    else (stringBody rest).map fun (s, r) => (c :: s, r)
  termination_by cs.length
  decreasing_by
    · have := escaped_shorter _h
      simp only [List.length_cons]
      omega
    · simp only [List.length_cons]
      omega

/-! ## Numbers -/

/-- A number: a whole number as it is, or any other, of which nothing more is asked. -/
inductive Number
  | whole (n : Int)
  | other
  deriving Repr, DecidableEq

def exponentPart (cs : List Char) : Except Fault (Int × List Char) :=
  let (sign, cs) : Int × List Char :=
    match cs with
    | '-' :: rest => (-1, rest)
    | '+' :: rest => (1, rest)
    | _ => (1, cs)
  match Decimal.span cs, cs with
  | ([], _), [] => .error .unfinished
  | ([], _), _ => .error .malformed
  | (ds, rest), _ => .ok (sign * Decimal.value ds, rest)

def optionalExponent : List Char → Except Fault (Option Int × List Char)
  | 'e' :: rest => (exponentPart rest).map fun (e, r) => (some e, r)
  | 'E' :: rest => (exponentPart rest).map fun (e, r) => (some e, r)
  | cs => .ok (none, cs)

def optionalFraction : List Char → Except Fault (Option (List Char) × List Char)
  | '.' :: rest =>
    match Decimal.span rest, rest with
    | ([], _), [] => .error .unfinished
    | ([], _), _ => .error .malformed
    | (ds, r), _ => .ok (some ds, r)
  | cs => .ok (none, cs)

/-- The digits before the point: a zero alone, or a run that starts with another digit. -/
def wholeDigits : List Char → Except Fault (List Char × List Char)
  | [] => .error .unfinished
  | '0' :: rest =>
    match rest with
    | c :: _ => if c.isDigit then .error .malformed else .ok (['0'], rest)
    | [] => .ok (['0'], rest)
  | c :: rest => if c.isDigit then .ok (Decimal.span (c :: rest)) else .error .malformed

/-- A number whose sign has been read. Minus zero is no whole number. -/
def unsignedNumber (negative : Bool) : Reader Number := fun cs => do
  let (ds, cs) ← wholeDigits cs
  let (fraction, cs) ← optionalFraction cs
  let (exponent, cs) ← optionalExponent cs
  let tail := fraction.getD []
  let significand := Decimal.value (ds ++ tail)
  if ¬ Decimal.inRange significand (exponent.getD 0 - tail.length) then throw .malformed
  if fraction.isSome ∨ exponent.isSome ∨ (negative ∧ significand = 0) then
    return (.other, cs)
  else
    return (.whole (if negative then -(significand : Int) else significand), cs)

def number : Reader Number
  | '-' :: rest => unsignedNumber true rest
  | cs => unsignedNumber false cs

/-! ## Values of a wrong type -/

/--
What is wrong where a value of another type stands: a word, a number or a string is read to its end
first, and what is wrong with it counts more than its type.
-/
def wrongType : List Char → Fault
  | [] => .malformed
  | c :: rest =>
    if c = 'n' then after (word ['u', 'l', 'l'] rest)
    else if c = 't' then after (word ['r', 'u', 'e'] rest)
    else if c = 'f' then after (word ['a', 'l', 's', 'e'] rest)
    else if c = '-' ∨ c.isDigit then after (number (c :: rest))
    else if c = '"' then after (stringBody rest)
    else if c = '[' ∨ c = openBrace then .mismatch
    else .malformed
where
  /-- The fault of a value that was read, or that could not be. -/
  after {α : Type} : Except Fault α → Fault
    | .error e => e
    | .ok _ => .mismatch

/-! ## Values of no interest -/

/-- A string of no interest: escapes are looked at, but what they stand for is not. -/
def skipString : List Char → Except Fault (List Char)
  | [] => .error .unfinished
  | '"' :: rest => .ok rest
  | '\\' :: 'u' :: a :: b :: c :: d :: rest =>
    if [a, b, c, d].all fun x => (hexValue? x).isSome then skipString rest
    else .error (if octetCount (a :: b :: c :: d :: rest) < 4 then .unfinished else .malformed)
  | '\\' :: 'u' :: few => .error (if octetCount few < 4 then .unfinished else .malformed)
  | '\\' :: [] => .error .unfinished
  | '\\' :: c :: rest =>
    if (shortEscape? c).isSome then skipString rest else .error .malformed
  | c :: rest => if c.toNat < 32 then .error .malformed else skipString rest

def skipDigits (cs : List Char) : Except Fault (List Char) :=
  match Decimal.span cs with
  | ([], _) => .error .malformed
  | (_, rest) => .ok rest

def skipExponent : List Char → Except Fault (List Char)
  | c :: rest =>
    if c = 'e' ∨ c = 'E' then
      match rest with
      | '+' :: more => skipDigits more
      | '-' :: more => skipDigits more
      | _ => skipDigits rest
    else .ok (c :: rest)
  | [] => .ok []

def skipNumber (cs : List Char) : Except Fault (List Char) := do
  let rest ←
    match cs with
    | '0' :: rest =>
      match rest with
      | c :: _ => if c.isDigit then throw .malformed else pure rest
      | [] => pure rest
    | _ => skipDigits cs
  match rest with
  | '.' :: more => do skipExponent (← skipDigits more)
  | _ => skipExponent rest

inductive Bracket
  | list
  | object
  deriving DecidableEq

/-- Where in a value of no interest a reader stands. -/
inductive Place
  /-- A value must come. -/
  | value
  /-- The first item or member, or the closing bracket, must come. -/
  | opened
  /-- A comma or the closing bracket must come. -/
  | closed
  /-- A member's name and its colon must come. -/
  | name

def skipName (cs : List Char) : Except Fault (List Char) :=
  match skipSpace cs with
  | [] => .error .unfinished
  | '"' :: rest => do
    match skipSpace (← skipString rest) with
    | [] => throw .unfinished
    | ':' :: more => return more
    | _ => throw .malformed
  | _ => .error .malformed

def Bracket.first : Bracket → Place
  | .list => .value
  | .object => .name

def Bracket.closedBy (b : Bracket) (c : Char) : Bool :=
  match b with
  | .list => c = ']'
  | .object => c = closeBrace

/-- Goes on from a place inside the open brackets; every two steps take a character. -/
def skipFrom : Nat → Place → List Bracket → List Char → Except Fault (List Char)
  | 0, _, _, _ => .error .malformed
  | _ + 1, .opened, [], cs => .ok cs
  | _ + 1, .closed, [], cs => .ok cs
  | fuel + 1, .name, stack, cs => do
    skipFrom fuel .value stack (← skipName cs)
  | fuel + 1, .opened, b :: stack, cs =>
    match skipSpace cs with
    | [] => .error .unfinished
    | c :: rest =>
      if b.closedBy c then skipFrom fuel .closed stack rest
      else skipFrom fuel b.first (b :: stack) (c :: rest)
  | fuel + 1, .closed, b :: stack, cs =>
    match skipSpace cs with
    | [] => .error .unfinished
    | c :: rest =>
      if c = ',' then skipFrom fuel b.first (b :: stack) rest
      else if b.closedBy c then skipFrom fuel .closed stack rest
      else .error .malformed
  | fuel + 1, .value, stack, cs =>
    match skipSpace cs with
    | [] => .error .unfinished
    | c :: rest => do
      if c = 'n' then skipFrom fuel .closed stack (← word ['u', 'l', 'l'] rest)
      else if c = 't' then skipFrom fuel .closed stack (← word ['r', 'u', 'e'] rest)
      else if c = 'f' then skipFrom fuel .closed stack (← word ['a', 'l', 's', 'e'] rest)
      else if c = '-' then skipFrom fuel .closed stack (← skipNumber rest)
      else if c.isDigit then skipFrom fuel .closed stack (← skipNumber (c :: rest))
      else if c = '"' then skipFrom fuel .closed stack (← skipString rest)
      else if c = '[' then skipFrom fuel .opened (.list :: stack) rest
      else if c = openBrace then skipFrom fuel .opened (.object :: stack) rest
      else throw .malformed

def skipValue (cs : List Char) : Except Fault (List Char) :=
  skipFrom (4 * cs.length + 4) .value [] cs

/-! ## Values of a type -/

def string : Reader String := fun cs =>
  match skipSpace cs with
  | [] => .error .unfinished
  | '"' :: rest => (stringBody rest).map fun (s, r) => (String.ofList s, r)
  | cs => .error (wrongType cs)

def boolean : Reader Bool := fun cs =>
  match skipSpace cs with
  | [] => .error .unfinished
  | 't' :: rest => (word ['r', 'u', 'e'] rest).map fun r => (true, r)
  | 'f' :: rest => (word ['a', 'l', 's', 'e'] rest).map fun r => (false, r)
  | cs => .error (wrongType cs)

def integer (low high : Int) : Reader Int := fun cs =>
  match skipSpace cs with
  | [] => .error .unfinished
  | c :: rest =>
    if c = '-' ∨ c.isDigit then do
      match ← number (c :: rest) with
      | (.whole n, r) => if low ≤ n ∧ n ≤ high then return (n, r) else throw .mismatch
      | (.other, _) => throw .mismatch
    else
      .error (wrongType (c :: rest))

def int64 : Reader Int := integer (-9223372036854775808) 9223372036854775807

def unsigned (bits : Nat) : Reader Nat := fun cs =>
  (integer 0 (Nat.pow 2 bits - 1) cs).map fun (n, r) => (n.toNat, r)

def nullable {α : Type} (read : Reader α) : Reader (Option α) := fun cs =>
  match skipSpace cs with
  | 'n' :: rest => (word ['u', 'l', 'l'] rest).map fun r => (none, r)
  | cs => (read cs).map fun (a, r) => (some a, r)

/-- An instant, as a string that the lenient reader of instants takes. -/
def instant : Reader Instant := fun cs => do
  let (s, rest) ← string cs
  match Rfc3339.readLoose s.toList with
  | some t => return (t, rest)
  | none => throw .mismatch

def colon (cs : List Char) : Except Fault (List Char) :=
  match skipSpace cs with
  | [] => .error .unfinished
  | ':' :: rest => .ok rest
  | _ => .error .malformed

/-- One of some names, alone or as the only member of an object, with null for its value. -/
def oneOf {α : Type} (names : List (String × α)) : Reader α := fun cs =>
  match skipSpace cs with
  | [] => .error .unfinished
  | c :: rest => do
    if c = '"' then named (c :: rest)
    else if c = openBrace then do
      let (a, rest) ← named rest
      let rest ← colon rest
      let rest ← null rest
      match skipSpace rest with
      | [] => throw .unfinished
      | c :: rest => if c = closeBrace then return (a, rest) else throw .malformed
    else throw .malformed
where
  /-- The value of a name. -/
  named : Reader α := fun cs => do
    let (s, rest) ← string cs
    match names.lookup s with
    | some a => return (a, rest)
    | none => throw .mismatch
  /-- Null. -/
  null (cs : List Char) : Except Fault (List Char) :=
    match skipSpace cs with
    | [] => .error .unfinished
    | 'n' :: rest => word ['u', 'l', 'l'] rest
    | cs => .error (wrongType cs)

def itemsFrom {α : Type} (read : Reader α) : Nat → Bool → Reader (List α)
  | 0, _, _ => .error .malformed
  | fuel + 1, first, cs =>
    match skipSpace cs with
    | [] => .error .unfinished
    | ']' :: rest => .ok ([], rest)
    | c :: rest =>
      if first then item fuel (c :: rest)
      else if c = ',' then
        match skipSpace rest with
        | [] => .error .unfinished
        | ']' :: _ => .error .malformed
        | rest => item fuel rest
      else .error .malformed
where
  /-- One item, and those after it. -/
  item (fuel : Nat) : Reader (List α) := fun cs => do
    let (a, rest) ← read cs
    let (as, rest) ← itemsFrom read fuel false rest
    return (a :: as, rest)

def list {α : Type} (read : Reader α) : Reader (List α) := fun cs =>
  match skipSpace cs with
  | [] => .error .unfinished
  | '[' :: rest => itemsFrom read (rest.length + 1) true rest
  | cs => .error (wrongType cs)

def readText {α : Type} (read : Reader α) (cs : List Char) : Except Fault α := do
  let (a, rest) ← read cs
  if skipSpace rest = [] then return a else throw .malformed

/--
Stands for an octet that belongs to no character. Outside of strings it is out of place; in a string that
is kept it is half of a pair, which no string can hold; and in a string of no interest nobody asks what it
stands for.
-/
def stray : List Char :=
  ['\uFFFD', '\\', 'u', 'd', 'c', '0', '0']

/-- Reads a value at the front of some octets, whatever follows it. -/
def readFront {α : Type} (read : Reader α) (octets : List UInt8) : Except Fault α :=
  (read (decode stray octets)).map Prod.fst

end Gatehouse.Json
