import Gatehouse.Store.Row
import Gatehouse.Store.Table
import Gatehouse.Store.TableNames

/-!
# The database

Three tables, of which some may be missing, behind a door that may be closed. A query looks at the
database and leaves it as it is. A change answers with a new database, or refuses and leaves the old
one: a change made of several steps is therefore made as a whole or not at all.
-/

namespace Gatehouse.Store

instance : Keyed UserRow := ⟨UserRow.id⟩
instance : Keyed SessionRow := ⟨SessionRow.id⟩
instance : Keyed NamespaceRow := ⟨NamespaceRow.id⟩

@[simp] theorem key_userRow (r : UserRow) : key r = r.id := rfl
@[simp] theorem key_sessionRow (r : SessionRow) : key r = r.id := rfl
@[simp] theorem key_namespaceRow (r : NamespaceRow) : key r = r.id := rfl

inductive Relation
  | users
  | sessions
  | namespaces
  deriving Repr, DecidableEq

def TableNames.of (names : TableNames) : Relation → String
  | .users => names.users
  | .sessions => names.sessions
  | .namespaces => names.namespaces

structure Database where
  names : TableNames
  users : Table UserRow
  sessions : Table SessionRow
  namespaces : Table NamespaceRow
  /-- The relations whose table is not there. -/
  missing : List Relation
  isClosed : Bool
  deriving Repr, DecidableEq

namespace Database

def empty (names : TableNames) : Database :=
  ⟨names, .empty, .empty, .empty, [], false⟩

def requireOpen (db : Database) : Except Error Unit :=
  if db.isClosed then .error .closed else .ok ()

def require (db : Database) (r : Relation) : Except Error Unit :=
  if r ∈ db.missing then .error (.noTable (db.names.of r)) else .ok ()

/-- Whether the store is open and no table is missing. -/
def Ready (db : Database) : Prop :=
  db.isClosed = false ∧ db.missing = []

theorem ready_empty (names : TableNames) : (empty names).Ready := ⟨rfl, rfl⟩

theorem Ready.requireOpen {db : Database} (h : db.Ready) : db.requireOpen = .ok () := by
  simp [Database.requireOpen, h.1]

theorem Ready.require {db : Database} (h : db.Ready) (r : Relation) : db.require r = .ok () := by
  simp [Database.require, h.2]

end Database

abbrev Query (α : Type) := Database → Except Error α

abbrev Change (α : Type) := Database → Except Error (α × Database)

/-- Makes a change: after a refusal the database is the old one. -/
def Change.commit {α : Type} (change : Change α) (db : Database) : Except Error α × Database :=
  match change db with
  | .ok (a, db') => (.ok a, db')
  | .error e => (.error e, db)

theorem Change.commit_of_ok {α : Type} {change : Change α} {db db' : Database} {a : α}
    (h : change db = .ok (a, db')) : change.commit db = (.ok a, db') := by
  simp [Change.commit, h]

theorem Change.commit_of_error {α : Type} {change : Change α} {db : Database} {e : Error}
    (h : change db = .error e) : change.commit db = (.error e, db) := by
  simp [Change.commit, h]

end Gatehouse.Store
