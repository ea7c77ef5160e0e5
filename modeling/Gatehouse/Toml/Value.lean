/-!
# TOML documents

A document is a table of named values. A table remembers how it came about, because that decides whether
it may still grow: a table under a header of its own takes no second header, one that dotted names have
made takes further dotted names only, and one written in a line takes nothing more.
-/

namespace Gatehouse.Toml

/-- How a table came about. -/
inductive Origin
  /-- It has a header, or is the document itself. -/
  | header
  /-- A longer header implies it. -/
  | implied
  /-- A dotted name implies it. -/
  | dotted
  deriving Repr, DecidableEq

/-- A value. Of fractional numbers and of instants nothing more is kept. -/
inductive Value
  | string (s : String)
  | integer (n : Int)
  | boolean (b : Bool)
  | float
  | instant
  | array (items : List Value)
  /-- A table written in a line. -/
  | inlineTable (entries : List (String × Value))
  | table (origin : Origin) (entries : List (String × Value))
  /-- Tables under repeated headers of the same name. -/
  | tables (all : List (List (String × Value)))
  deriving Repr, Inhabited

abbrev Entries := List (String × Value)

namespace Entries

/-- Gives a name a value: in its place if the name is there, and else at the end. -/
def put (name : String) (v : Value) : Entries → Entries
  | [] => [(name, v)]
  | (n, w) :: entries => if n = name then (n, v) :: entries else (n, w) :: put name v entries

/--
Changes the table at the end of a path, making the tables that are missing. Through dotted names no
table with a header can be reached; of repeated tables the last one is meant.
-/
def alter (dotted : Bool) (change : Origin → Entries → Option Entries) :
    List String → Origin → Entries → Option Entries
  | [], origin, entries => change origin entries
  | name :: path, _, entries =>
    match entries.lookup name with
    | none =>
      let made := if dotted then Origin.dotted else .implied
      (alter dotted change path made []).map fun child => put name (.table made child) entries
    | some (.table origin child) =>
      if dotted ∧ origin = .header then none
      else (alter dotted change path origin child).map fun child =>
        put name (.table origin child) entries
    | some (.tables all) =>
      match all.reverse with
      | [] => none
      | last :: before =>
        (alter dotted change path .header last).map fun last =>
          put name (.tables (last :: before).reverse) entries
    | some _ => none

/-- Adds a value under a new name, to a table that dotted names have made if they lead to it. -/
def insert (viaDots : Bool) (name : String) (v : Value) (origin : Origin) (entries : Entries) :
    Option Entries :=
  if (origin = .dotted) = viaDots ∧ (entries.lookup name).isNone then
    some (entries ++ [(name, v)])
  else
    none

def assign (path : List String) (name : String) (v : Value) : Origin → Entries → Option Entries :=
  alter true (insert (path ≠ []) name v) path

def assignUnder (header path : List String) (name : String) (v : Value) (document : Entries) :
    Option Entries :=
  alter false (fun origin entries => assign path name v origin entries) header .header document

/-- Opens the table of a header; one that longer headers have implied becomes its own. -/
def openTable (path : List String) (name : String) (document : Entries) : Option Entries :=
  alter false
    (fun _ entries =>
      match entries.lookup name with
      | none => some (put name (.table .header []) entries)
      | some (.table .implied child) => some (put name (.table .header child) entries)
      | some _ => none)
    path .header document

def openNext (path : List String) (name : String) (document : Entries) : Option Entries :=
  alter false
    (fun _ entries =>
      match entries.lookup name with
      | none => some (put name (.tables [[]]) entries)
      | some (.tables all) => some (put name (.tables (all ++ [[]])) entries)
      | some _ => none)
    path .header document

end Entries

end Gatehouse.Toml
