import Gatehouse.Toml.Scalar

/-!
# Reading TOML

A document is read line by line: headers open tables, and names get values. Nothing may be named twice,
and values may not be nested too deeply.
-/

namespace Gatehouse.Toml

open Gatehouse.Text

/-- How deep values may be nested, and how many parts a name may have. -/
abbrev depthLimit : Nat := 80

def comment? : List Char → Option (List Char)
  | '#' :: rest => some (rest.dropWhile isPlain)
  | _ => none

def skipComment (cs : List Char) : List Char :=
  (comment? cs).getD cs

def lineEnd? (cs : List Char) : Option (List Char) :=
  match skipComment (skipBlank cs) with
  | [] => some []
  | rest => newline? rest

/-- The text after blanks, comments and line ends; a comment must end with its line. -/
def skipLines : Nat → List Char → List Char
  | 0, cs => cs
  | fuel + 1, cs =>
    let cs := skipBlank cs
    match newline? (skipComment cs) with
    | some rest => skipLines fuel rest
    | none => cs

/-! ## Names -/

def isBare (c : Char) : Bool :=
  c.isAlphanum || c = '-' || c = '_'

def part? (cs : List Char) : Option (String × List Char) :=
  match lineString? cs with
  | some (s, rest) => some (String.ofList s, rest)
  | none =>
    let bare := cs.takeWhile isBare
    if bare = [] then none else some (String.ofList bare, cs.drop bare.length)

def parts? : Nat → Reader (List String)
  | 0, _ => none
  | fuel + 1, cs => do
    let (p, rest) ← part? (skipBlank cs)
    match skipBlank rest with
    | '.' :: rest => do
      let (ps, rest) ← parts? fuel rest
      some (p :: ps, rest)
    | rest => some ([p], rest)

/-- A name: the parts that lead to it, and the last one. -/
def name? (cs : List Char) : Option (List String × String × List Char) := do
  let (parts, rest) ← parts? depthLimit cs
  let last ← parts.getLast?
  if parts.length < depthLimit then some (parts.dropLast, last, rest) else none

/-! ## Values -/

mutual

def value? : Nat → Nat → Reader Value
  | 0, _, _ => none
  | fuel + 1, depth, cs =>
    match cs with
    | [] => none
    | c :: rest =>
      if c = '[' then
        if depth + 1 < depthLimit then
          (items? fuel (depth + 1) rest).map fun (vs, rest) => (.array vs, rest)
        else none
      else if c = Char.ofNat 123 then
        if depth + 1 < depthLimit then
          match skipBlank rest with
          | [] => none
          | d :: more =>
            if d = Char.ofNat 125 then some (.inlineTable [], more)
            else (entries? fuel (depth + 1) [] (d :: more)).map fun (es, rest) =>
              (.inlineTable es, rest)
        else none
      else scalarValue? (c :: rest)

def items? : Nat → Nat → Reader (List Value)
  | 0, _, _ => none
  | fuel + 1, depth, cs =>
    match skipLines (cs.length + 1) cs with
    | ']' :: rest => some ([], rest)
    | cs => do
      let (v, rest) ← value? fuel depth cs
      match skipLines (rest.length + 1) rest with
      | ',' :: rest => do
        let (vs, rest) ← items? fuel depth rest
        some (v :: vs, rest)
      | ']' :: rest => some ([v], rest)
      | _ => none

def entries? : Nat → Nat → Entries → Reader Entries
  | 0, _, _, _ => none
  | fuel + 1, depth, before, cs => do
    let (path, name, rest) ← name? cs
    let rest ← literal? ['='] rest
    let (v, rest) ← value? fuel depth (skipBlank rest)
    let entries ← Entries.assign path name v .header before
    match skipBlank rest with
    | ',' :: rest => entries? fuel depth entries rest
    | c :: rest => if c = Char.ofNat 125 then some (entries, rest) else none
    | [] => none

end

/-! ## Documents -/

def header? (cs : List Char) : Option (List String × String × Bool × List Char) :=
  match cs with
  | '[' :: '[' :: rest => do
    let (path, name, rest) ← name? rest
    let rest ← literal? [']', ']'] rest
    some (path, name, true, rest)
  | '[' :: rest => do
    let (path, name, rest) ← name? rest
    let rest ← literal? [']'] rest
    some (path, name, false, rest)
  | _ => none

def assignment? (cs : List Char) : Option (List String × String × Value × List Char) := do
  let (path, name, rest) ← name? cs
  let rest ← literal? ['='] rest
  let (v, rest) ← value? (2 * rest.length + 2) 0 (skipBlank rest)
  some (path, name, v, rest)

/-- The lines of a document, of which some entries and the header in force are known. -/
def lines? : Nat → List String → Entries → List Char → Option Entries
  | 0, _, _, _ => none
  | fuel + 1, header, document, cs =>
    match skipBlank cs with
    | [] => some document
    | cs =>
      match lineEnd? cs with
      | some rest => lines? fuel header document rest
      | none =>
        match header? cs with
        | some (path, name, repeats, rest) => do
          let document ←
            if repeats then Entries.openNext path name document
            else Entries.openTable path name document
          lines? fuel (path ++ [name]) document (← lineEnd? rest)
        | none => do
          let (path, name, v, rest) ← assignment? cs
          let document ← Entries.assignUnder header path name v document
          lines? fuel header document (← lineEnd? rest)

/-- Reads a document; a mark of the byte order may stand in front. -/
def read (cs : List Char) : Option Entries :=
  let cs :=
    match cs with
    | c :: rest => if c.toNat = 0xFEFF then rest else cs
    | [] => []
  lines? (cs.length + 1) [] [] cs

end Gatehouse.Toml
