import Gatehouse.Store.Error

/-!
# Names of the tables

The three tables may be named freely, as long as each name is a plain identifier and no two are the
same. From the names of the tables follow the names of all objects of the schema.
-/

namespace Gatehouse.Store

structure TableNames where
  users : String := "user"
  sessions : String := "session"
  namespaces : String := "namespace"
  deriving Repr, DecidableEq

/-- A letter or an underscore first, then letters, digits and underscores, all of them ASCII. -/
def isIdentifier (name : String) : Bool :=
  match name.toList with
  | [] => false
  | c :: cs => (c.isAlpha || c = '_') && cs.all fun d => d.isAlphanum || d = '_'

namespace TableNames

def toList (t : TableNames) : List String :=
  [t.users, t.sessions, t.namespaces]

def check (t : TableNames) : Except Error Unit :=
  match t.toList.find? (!isIdentifier ·) with
  | some name => .error (.badTableName name)
  | none =>
    if t.users = t.sessions ∨ t.users = t.namespaces ∨ t.sessions = t.namespaces then
      .error .sameTableNames
    else
      .ok ()

def quoted (name : String) : String :=
  "\"" ++ name ++ "\""

/--
The names of the objects of the schema: the tables, the two indexes that keep addresses and names of
undeleted users apart, and the index of sessions by owner.
-/
def objectNames (t : TableNames) : List String :=
  [t.users, t.users ++ "_email_aktiv", t.users ++ "_username_aktiv", t.sessions,
    t.sessions ++ "_owner", t.namespaces]

end TableNames

end Gatehouse.Store
