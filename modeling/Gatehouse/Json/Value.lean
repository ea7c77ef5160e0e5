import Gatehouse.Text.Decimal

/-!
# JSON values and their text

The values that answers are made of. An object keeps the order in which its members are given, and
numbers are whole. The text has no blanks, and in a string only quotes, backslashes and control
characters are escaped.
-/

namespace Gatehouse

/-- A JSON value without fractional numbers. -/
inductive Json
  | null
  | bool (b : Bool)
  | int (n : Int)
  | str (s : String)
  | arr (items : List Json)
  | obj (members : List (String × Json))
  deriving Repr, Inhabited

namespace Json

open Gatehouse.Text

def ofOption {α : Type} (f : α → Json) : Option α → Json
  | none => .null
  | some a => f a

def hexDigit (n : Nat) : Char :=
  if n < 10 then Char.ofNat (48 + n) else Char.ofNat (87 + n)

def escape (c : Char) : List Char :=
  if c = '"' then ['\\', '"']
  else if c = '\\' then ['\\', '\\']
  else if c.toNat = 8 then ['\\', 'b']
  else if c.toNat = 9 then ['\\', 't']
  else if c.toNat = 10 then ['\\', 'n']
  else if c.toNat = 12 then ['\\', 'f']
  else if c.toNat = 13 then ['\\', 'r']
  else if c.toNat < 32 then
    ['\\', 'u', '0', '0', hexDigit (c.toNat / 16), hexDigit (c.toNat % 16)]
  else [c]

def quoted (s : String) : List Char :=
  '"' :: s.toList.flatMap escape ++ ['"']

mutual

def render : Json → List Char
  | null => ['n', 'u', 'l', 'l']
  | bool true => ['t', 'r', 'u', 'e']
  | bool false => ['f', 'a', 'l', 's', 'e']
  | int n => Decimal.ofInt n
  | str s => quoted s
  | arr [] => ['[', ']']
  | arr (v :: vs) => '[' :: render v ++ renderItems vs
  | obj [] => [Char.ofNat 123, Char.ofNat 125]
  | obj ((name, v) :: ms) => Char.ofNat 123 :: quoted name ++ ':' :: render v ++ renderMembers ms

def renderItems : List Json → List Char
  | [] => [']']
  | v :: vs => ',' :: render v ++ renderItems vs

def renderMembers : List (String × Json) → List Char
  | [] => [Char.ofNat 125]
  | (name, v) :: ms => ',' :: quoted name ++ ':' :: render v ++ renderMembers ms

end

def text (v : Json) : String :=
  String.ofList v.render

end Json

end Gatehouse
