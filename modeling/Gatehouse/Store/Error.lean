import Gatehouse.Identity
import Gatehouse.Time.Rfc3339

/-!
# What the store refuses

Every refusal is a cause. Causes fall into five kinds, and the message of a cause is the heading of its
kind and then what happened. A conflict is a refusal because something is already taken; callers treat
it apart from all others.
-/

namespace Gatehouse.Store

open Gatehouse.Text Gatehouse.Time

inductive ErrorKind
  | notFound
  | conflict
  | invalidData
  | sql
  | internal
  deriving Repr, DecidableEq

def ErrorKind.heading : ErrorKind → String
  | notFound => "Datensatz nicht gefunden: "
  | conflict => "Eindeutigkeitsverletzung: "
  | invalidData => "Ungueltige Daten: "
  | sql => "SQL-Fehler: "
  | internal => "Interner DB-Fehler: "

inductive Error
  /-- No row has this user number. -/
  | noUser (id : UserId)
  /-- A user that is not deleted has the name or the address. -/
  | userTaken (username email : String)
  /-- Another session has the token. -/
  | tokenTaken
  /-- Another namespace has the path, or the owner has one already. -/
  | namespaceTaken (path : String) (owner : Int)
  /-- The user to take over a namespace has one already. -/
  | ownerTaken (owner : Int)
  /-- A table may not have this name. -/
  | badTableName (name : String)
  /-- Two tables would have one name. -/
  | sameTableNames
  /-- The store has been closed. -/
  | closed
  /-- The table is not there. -/
  | noTable (name : String)
  /-- A table has no such column. -/
  | noColumn (name : String)
  /-- A statement would bind more values than the engine takes. -/
  | tooManyValues
  /-- A column cannot hold such a value. -/
  | wrongCell
  /-- A session would have an owner without a row. -/
  | danglingOwner
  /-- A column would hold nothing. -/
  | emptyColumn (column : String)
  /-- Two rows would agree in these columns, or in the number of the row. -/
  | duplicate (columns : List String) (isRowNumber : Bool)
  /-- A stored instant cannot be read. -/
  | badInstant (column : String) (fault : Rfc3339.Fault)
  /-- A stored number stands for no kind of owner. -/
  | badOwnerKind (code : Int)
  /-- A refusal of a kind in words of its own. -/
  | described (kind : ErrorKind) (words : String)
  deriving Repr, DecidableEq

namespace Error

def kind : Error → ErrorKind
  | noUser _ => .notFound
  | userTaken _ _ | tokenTaken | namespaceTaken _ _ | ownerTaken _ => .conflict
  | badTableName _ | sameTableNames => .invalidData
  | closed | noTable _ | noColumn _ | tooManyValues | wrongCell | danglingOwner | emptyColumn _
  | duplicate _ _ => .sql
  | badInstant _ _ | badOwnerKind _ => .internal
  | described kind _ => kind

/-- How the engine of the store reports a failed statement. -/
def engine (code : Nat) (words : String) : String :=
  "error returned from database: (code: " ++ Decimal.text code ++ ") " ++ words

def detail : Error → String
  | noUser id => "Benutzer " ++ id.text
  | userTaken username email =>
    "Benutzername '" ++ username ++ "' oder E-Mail '" ++ email ++ "' bereits vergeben"
  | tokenTaken => "Session-Token bereits vergeben"
  | namespaceTaken path owner =>
    "Namespace '" ++ path ++ "' oder Owner " ++ Decimal.intText owner ++ " bereits vergeben"
  | ownerTaken owner => "Benutzer " ++ Decimal.intText owner ++ " hat bereits einen Namespace"
  | badTableName name => "Ungueltiger Tabellenname '" ++ name ++ "'"
  | sameTableNames => "Tabellennamen muessen verschieden sein"
  | closed => "attempted to acquire a connection on a closed pool"
  | noTable name => engine 1 ("no such table: " ++ name)
  | noColumn name => engine 1 ("no such column: " ++ name)
  | tooManyValues => engine 1 "too many SQL variables"
  | wrongCell => engine 20 "datatype mismatch"
  | danglingOwner => engine 787 "FOREIGN KEY constraint failed"
  | emptyColumn column => engine 1299 ("NOT NULL constraint failed: " ++ column)
  | duplicate columns isRowNumber =>
    engine (if isRowNumber then 1555 else 2067)
      ("UNIQUE constraint failed: " ++ ", ".intercalate columns)
  | badInstant column fault => "Ungueltige DateTime in '" ++ column ++ "': " ++ fault.message
  | badOwnerKind code => OwnerKind.unknownCode code
  | described _ words => words

def message (e : Error) : String :=
  e.kind.heading ++ e.detail

/-- Whether something is already taken. -/
def isConflict (e : Error) : Bool :=
  e.kind == .conflict

end Error

end Gatehouse.Store
