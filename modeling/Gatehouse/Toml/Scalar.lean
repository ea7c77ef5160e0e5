import Gatehouse.Text.Decimal
import Gatehouse.Text.Percent
import Gatehouse.Time.Calendar
import Gatehouse.Toml.Value

/-!
# Words, strings, numbers and instants in TOML

Each reader takes its kind of value from the front of a text and leaves the rest, or finds that the text
does not start with one.
-/

namespace Gatehouse.Toml

open Gatehouse.Text

abbrev Reader (α : Type) := List Char → Option (α × List Char)

abbrev apostrophe : Char := Char.ofNat 39

def isBlank (c : Char) : Bool :=
  c = ' ' || c = '\t'

def skipBlank (cs : List Char) : List Char :=
  cs.dropWhile isBlank

def newline? : List Char → Option (List Char)
  | '\n' :: rest => some rest
  | '\r' :: '\n' :: rest => some rest
  | _ => none

/-- The characters that may stand in comments and in strings: no controls but the tab. -/
def isPlain (c : Char) : Bool :=
  (0x20 ≤ c.toNat && c.toNat != 0x7F) || c = '\t'

def literal? (word cs : List Char) : Option (List Char) :=
  if word.isPrefixOf cs then some (cs.drop word.length) else none

/-! ## Strings -/

def hexDigits? : Nat → Reader Nat
  | 0, cs => some (0, cs)
  | count + 1, c :: cs => do
    let d ← Percent.hexValue? c
    let (n, rest) ← hexDigits? count cs
    some (d * Nat.pow 16 count + n, rest)
  | _ + 1, [] => none

def scalar? (n : Nat) : Option Char :=
  if h : n.isValidChar then some (Char.ofNatAux n h) else none

def escape? : Reader Char
  | 'b' :: rest => some (Char.ofNat 8, rest)
  | 't' :: rest => some ('\t', rest)
  | 'n' :: rest => some ('\n', rest)
  | 'f' :: rest => some (Char.ofNat 12, rest)
  | 'r' :: rest => some ('\r', rest)
  | '"' :: rest => some ('"', rest)
  | '\\' :: rest => some ('\\', rest)
  | 'u' :: rest => code 4 rest
  | 'U' :: rest => code 8 rest
  | _ => none
where
  /-- A character by its code. -/
  code (count : Nat) (cs : List Char) : Option (Char × List Char) := do
    let (n, rest) ← hexDigits? count cs
    let c ← scalar? n
    some (c, rest)

def basicBody : Nat → Reader (List Char)
  | 0, _ => none
  | _ + 1, [] => none
  | fuel + 1, c :: cs =>
    if c = '"' then some ([], cs)
    else if c = '\\' then do
      let (e, rest) ← escape? cs
      let (s, rest) ← basicBody fuel rest
      some (e :: s, rest)
    else if isPlain c then (basicBody fuel cs).map fun (s, rest) => (c :: s, rest)
    else none

def literalBody : Reader (List Char)
  | [] => none
  | c :: cs =>
    if c = apostrophe then some ([], cs)
    else if isPlain c then (literalBody cs).map fun (s, rest) => (c :: s, rest)
    else none

/--
Up to five quotes at the end of a string over several lines: the last three close it, and those before
belong to it. Fewer than three are part of the string.
-/
def closing? (quote : Char) (cs : List Char) : Option (List Char × List Char) :=
  let count := min (cs.takeWhile (· = quote)).length 5
  if count < 3 then none else some (List.replicate (count - 3) quote, cs.drop count)

def skipBreaks : Nat → List Char → List Char
  | 0, cs => cs
  | fuel + 1, cs =>
    let cs := skipBlank cs
    match newline? cs with
    | some rest => skipBreaks fuel rest
    | none => cs

def continued? (cs : List Char) : Option (List Char) :=
  (newline? (skipBlank cs)).map fun rest => skipBreaks (rest.length + 1) rest

/-- The characters of a string over several lines; the end of a line counts as a line feed. -/
def multiBody (quote : Char) (escapes : Bool) : Nat → Reader (List Char)
  | 0, _ => none
  | _ + 1, [] => none
  | fuel + 1, c :: cs =>
    if c = quote then
      match closing? quote (c :: cs) with
      | some result => some result
      | none => (multiBody quote escapes fuel cs).map fun (s, rest) => (c :: s, rest)
    else if escapes ∧ c = '\\' then
      match continued? cs with
      | some rest => multiBody quote escapes fuel rest
      | none => do
        let (e, rest) ← escape? cs
        let (s, rest) ← multiBody quote escapes fuel rest
        some (e :: s, rest)
    else
      match newline? (c :: cs) with
      | some rest => (multiBody quote escapes fuel rest).map fun (s, rest) => ('\n' :: s, rest)
      | none =>
        if isPlain c then (multiBody quote escapes fuel cs).map fun (s, rest) => (c :: s, rest)
        else none

def lineString? : Reader (List Char)
  | [] => none
  | c :: cs =>
    if c = '"' then basicBody (cs.length + 1) cs
    else if c = apostrophe then literalBody cs
    else none

/-- A string; three quotes open one over several lines, whose first line end does not count. -/
def string? (cs : List Char) : Option (String × List Char) :=
  let multi (quote : Char) (rest : List Char) : Option (List Char × List Char) :=
    multiBody quote (quote = '"') (rest.length + 1) ((newline? rest).getD rest)
  let read :=
    match literal? ['"', '"', '"'] cs, literal? [apostrophe, apostrophe, apostrophe] cs with
    | some rest, _ => multi '"' rest
    | none, some rest => multi apostrophe rest
    | none, none => lineString? cs
  read.map fun (s, rest) => (String.ofList s, rest)

/-! ## Numbers -/

/-- Digits of a kind; between two digits one underscore may stand. -/
def digitRun (isDigit : Char → Bool) : List Char → List Char × List Char
  | '_' :: c :: cs =>
    if isDigit c then
      let (ds, rest) := digitRun isDigit cs
      (c :: ds, rest)
    else
      ([], '_' :: c :: cs)
  | c :: cs =>
    if isDigit c then
      let (ds, rest) := digitRun isDigit cs
      (c :: ds, rest)
    else
      ([], c :: cs)
  | [] => ([], [])

def digits? (isDigit : Char → Bool) : Reader (List Char)
  | [] => none
  | c :: cs => if isDigit c then some (digitRun isDigit (c :: cs)) else none

def sign : List Char → Bool × List Char
  | '-' :: rest => (true, rest)
  | '+' :: rest => (false, rest)
  | cs => (false, cs)

/-- The digits of a decimal number without superfluous zeros. -/
def decimal? : Reader (List Char)
  | '0' :: rest => some (['0'], rest)
  | cs => digits? Char.isDigit cs

abbrev greatestInteger : Int := 9223372036854775807

def valueIn (base : Nat) (ds : List Char) : Nat :=
  ds.foldl (fun n d => base * n + (Percent.hexValue? d).getD 0) 0

def based? (base : Nat) (isDigit : Char → Bool) (cs : List Char) : Option (Value × List Char) := do
  let (ds, rest) ← digits? isDigit cs
  let n := valueIn base ds
  if n ≤ greatestInteger.toNat then some (.integer n, rest) else none

def decimalInteger? (cs : List Char) : Option (Value × List Char) := do
  let (isNegative, cs) := sign cs
  let (ds, rest) ← decimal? cs
  let n : Int := Decimal.value ds
  let n := if isNegative then -n else n
  if -greatestInteger - 1 ≤ n ∧ n ≤ greatestInteger then some (.integer n, rest) else none

def integer? : Reader Value
  | '0' :: 'x' :: rest => based? 16 (fun c => (Percent.hexValue? c).isSome) rest
  | '0' :: 'o' :: rest => based? 8 (fun c => '0' ≤ c && c ≤ '7') rest
  | '0' :: 'b' :: rest => based? 2 (fun c => c = '0' || c = '1') rest
  | cs => decimalInteger? cs

def fraction? : Reader (List Char)
  | '.' :: rest => digits? Char.isDigit rest
  | _ => none

def exponent? : Reader Int
  | c :: rest =>
    if c = 'e' ∨ c = 'E' then do
      let (isNegative, rest) := sign rest
      let (ds, rest) ← digits? Char.isDigit rest
      let n : Int := Decimal.value ds
      some (if isNegative then -n else n, rest)
    else
      none
  | [] => none

/-- A number with a fraction, an exponent or both, or one of the words for no finite number. -/
def float? (cs : List Char) : Option (Value × List Char) :=
  let (isNegative, cs) := sign cs
  match literal? ['i', 'n', 'f'] cs, literal? ['n', 'a', 'n'] cs with
  | some rest, _ => some (.float, rest)
  | none, some rest => some (.float, rest)
  | none, none => do
    let (whole, cs) ← decimal? cs
    let (tail, exponent, rest) ←
      match exponent? cs with
      | some (e, rest) => some (([] : List Char), e, rest)
      | none =>
        match fraction? cs with
        | none => none
        | some (tail, rest) =>
          match exponent? rest with
          | some (e, rest) => some (tail, e, rest)
          | none => some (tail, 0, rest)
    if isNegative ∨ Decimal.inRange (Decimal.value (whole ++ tail)) (exponent - tail.length) then
      some (.float, rest)
    else
      none

/-! ## Instants -/

def fixed? (count low high : Nat) (cs : List Char) : Option (Nat × List Char) :=
  let ds := cs.take count
  if ds.length = count ∧ ds.all Char.isDigit then
    let n := Decimal.value ds
    if low ≤ n ∧ n ≤ high then some (n, cs.drop count) else none
  else
    none

def date? (cs : List Char) : Option (List Char) := do
  let (year, cs) ← fixed? 4 0 9999 cs
  let cs ← literal? ['-'] cs
  let (month, cs) ← fixed? 2 1 12 cs
  let cs ← literal? ['-'] cs
  let (_, cs) ← fixed? 2 1 (Time.daysInMonth year month) cs
  some cs

/-- A time of day, to any fraction of a second. -/
def clock? (cs : List Char) : Option (List Char) := do
  let (_, cs) ← fixed? 2 0 23 cs
  let cs ← literal? [':'] cs
  let (_, cs) ← fixed? 2 0 59 cs
  let cs ← literal? [':'] cs
  let (_, cs) ← fixed? 2 0 60 cs
  match cs with
  | '.' :: rest =>
    let (ds, rest) := Decimal.span rest
    if ds = [] then none else some rest
  | _ => some cs

def distance? : List Char → Option (List Char)
  | c :: rest =>
    if c = 'Z' ∨ c = 'z' then some rest
    else if c = '+' ∨ c = '-' then do
      let (_, cs) ← fixed? 2 0 23 rest
      let cs ← literal? [':'] cs
      let (_, cs) ← fixed? 2 0 59 cs
      some cs
    else none
  | [] => none

def instant? (cs : List Char) : Option (Value × List Char) :=
  match date? cs with
  | none => (clock? cs).map fun rest => (.instant, rest)
  | some rest =>
    let timed :=
      match rest with
      | c :: more => if c = 'T' ∨ c = 't' ∨ c = ' ' then clock? more else none
      | [] => none
    match timed with
    | none => some (.instant, rest)
    | some rest => some (.instant, (distance? rest).getD rest)

def scalarValue? (cs : List Char) : Option (Value × List Char) :=
  match cs with
  | [] => none
  | c :: _ =>
    if c = '"' ∨ c = apostrophe then (string? cs).map fun (s, rest) => (.string s, rest)
    else if c = 't' then (literal? ['t', 'r', 'u', 'e'] cs).map fun rest => (.boolean true, rest)
    else if c = 'f' then
      (literal? ['f', 'a', 'l', 's', 'e'] cs).map fun rest => (.boolean false, rest)
    else instant? cs <|> float? cs <|> integer? cs

end Gatehouse.Toml
