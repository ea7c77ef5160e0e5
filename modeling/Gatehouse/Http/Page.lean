import Gatehouse.Json.Record
import Gatehouse.Json.Value
import Gatehouse.Text.Percent

/-!
# Pages

Which part of a long list a request asks for. Pages count from zero; a page has at least one entry and
at most a hundred, and twenty where nothing is said.
-/

namespace Gatehouse.Http

open Gatehouse.Text

structure Page where
  page : Option Nat
  per : Option Nat
  deriving Repr, DecidableEq

namespace Page

abbrev usualLength : Nat := 20

abbrev greatestLength : Nat := 100

/-- The number and the length of the page that is given out. -/
def resolve (p : Page) : Nat × Nat :=
  (p.page.getD 0, min (max (p.per.getD usualLength) 1) greatestLength)

def word? (cs : List Char) : Option Nat :=
  (Decimal.unsigned? cs).filter (· < Nat.pow 2 64)

/-- The only number given under a name; `none` where it is given twice or is no number. -/
def given? (name : String) (pairs : List (List Char × List Char)) : Option (Option Nat) :=
  match (pairs.filter (·.1 = name.toList)).map (·.2) with
  | [] => some none
  | [value] => (word? value).map some
  | _ => none

/-- The page of a query; other names do not matter. -/
def ofQuery? (query : List Char) : Option Page := do
  let pairs := Percent.pairs query
  let page ← given? "page" pairs
  let per ← given? "per" pairs
  some ⟨page, per⟩

def toJson (p : Page) : Json :=
  .obj
    [("page", Json.ofOption (fun n => .int n) p.page), ("per", Json.ofOption (fun n => .int n) p.per)]

def reader : Json.Reader Page :=
  Json.record ⟨none, none⟩
    [Json.field "page" .nullable (Json.nullable (Json.unsigned 64)) fun p x => { p with page := x },
     Json.field "per" .nullable (Json.nullable (Json.unsigned 64)) fun p x => { p with per := x }]

end Page

end Gatehouse.Http
