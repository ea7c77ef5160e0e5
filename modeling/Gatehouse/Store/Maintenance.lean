import Gatehouse.Store.Database

/-!
# Care of the store

Opening and closing, laying out the tables, dropping one, and changing a single column of a row by hand.
A change by hand goes past the callers but not past the constraints of the tables: numbers of rows,
names and addresses of undeleted users, tokens, paths and owners stay unique, and no session loses its
owner.
-/

namespace Gatehouse.Store

open Gatehouse.Text

/-- The text that a column of text makes of a value. -/
def Cell.toText? : Cell → Option String
  | null => none
  | int n => some (Decimal.intText n)
  | text s => some s

/-- The number that a column of numbers makes of a value; text must be a number. -/
def Cell.toInt? : Cell → Except Error (Option Int)
  | null => .ok none
  | int n => .ok (some n)
  | text s =>
    match Decimal.int? s.toList with
    | some n => .ok (some n)
    | none => .error .wrongCell

def neededText (table column : String) (cell : Cell) : Except Error String :=
  match cell.toText? with
  | some s => .ok s
  | none => .error (.emptyColumn (table ++ "." ++ column))

def neededInt (table column : String) (cell : Cell) : Except Error Int := do
  match ← cell.toInt? with
  | some n => return n
  | none => throw (.emptyColumn (table ++ "." ++ column))

def rowNumber (cell : Cell) : Except Error Int := do
  match ← cell.toInt? with
  | some n => return n
  | none => throw .wrongCell

def UserRow.with (table column : String) (cell : Cell) (r : UserRow) : Except Error UserRow :=
  let text := neededText table column cell
  let int := neededInt table column cell
  match column with
  | "id" => do return { r with id := ← rowNumber cell }
  | "email" => do return { r with email := ← text }
  | "encrypted_password" => do return { r with passwordHash := ← text }
  | "username" => do return { r with username := ← text }
  | "name" => do return { r with name := ← text }
  | "public_email" => do return { r with publicEmail := ← int }
  | "created_at" => do return { r with createdAt := ← text }
  | "deleted_at" => .ok { r with deletedAt := cell.toText? }
  | "verified_at" => .ok { r with verifiedAt := cell.toText? }
  | "last_login_at" => .ok { r with lastLoginAt := cell.toText? }
  | "last_login_ip" => .ok { r with lastLoginIp := cell.toText? }
  | "register_ip" => do return { r with registerIp := ← text }
  | "is_admin" => do return { r with isAdmin := ← int }
  | "namespace_id" => do return { r with namespaceId := ← cell.toInt? }
  | _ => .error (.noColumn column)

def SessionRow.with (table column : String) (cell : Cell) (r : SessionRow) :
    Except Error SessionRow :=
  let text := neededText table column cell
  match column with
  | "id" => do return { r with id := ← rowNumber cell }
  | "owner_id" => do return { r with ownerId := ← neededInt table column cell }
  | "token" => do return { r with token := ← text }
  | "client_ip" => do return { r with clientIp := ← text }
  | "created_at" => do return { r with createdAt := ← text }
  | "expired_at" => do return { r with expiredAt := ← text }
  | _ => .error (.noColumn column)

def NamespaceRow.with (table column : String) (cell : Cell) (r : NamespaceRow) :
    Except Error NamespaceRow :=
  let int := neededInt table column cell
  match column with
  | "id" => do return { r with id := ← rowNumber cell }
  | "owner_id" => do return { r with ownerId := ← int }
  | "owner_type" => do return { r with ownerType := ← int }
  | "path" => do return { r with path := ← neededText table column cell }
  | _ => .error (.noColumn column)

def checkNumber {ρ : Type} [Keyed ρ] (table : String) (others : List ρ) (row : ρ) :
    Except Error Unit :=
  if others.any fun r => key r = key row then .error (.duplicate [table ++ ".id"] true) else .ok ()

/-- Refuses a row that agrees with another one in some columns. -/
def checkUnique {ρ : Type} (columns : List String) (others : List ρ) (same : ρ → Bool) :
    Except Error Unit :=
  if others.any same then .error (.duplicate columns false) else .ok ()

namespace Database

/-- Puts the tables in place that are missing; a new table starts without rows. -/
def createSchema : Change Unit := fun db => do
  db.requireOpen
  return ((), { db with missing := [] })

def close (db : Database) : Database :=
  { db with isClosed := true }

/-- Opens the store again; missing tables are put in place. -/
def reopen (db : Database) : Database :=
  { db with isClosed := false, missing := [] }

def ping (db : Database) : Bool :=
  !db.isClosed

/-- Removes a table with its rows. Users cannot go while a session refers to one. -/
def dropTable (relation : Relation) : Change Unit := fun db => do
  db.requireOpen
  db.require relation
  let db := { db with missing := relation :: db.missing }
  match relation with
  | .users =>
    if db.sessions.rows ≠ [] then throw .danglingOwner
    return ((), { db with users := .empty })
  | .sessions => return ((), { db with sessions := .empty })
  | .namespaces => return ((), { db with namespaces := .empty })

def editUser (id : Int) (column : String) (cell : Cell) : Change Nat := fun db => do
  db.requireOpen
  db.require .users
  let table := db.names.users
  match db.users.find? fun r => r.id = id with
  | none =>
    if (UserRow.columns ⟨0, "", "", "", "", 0, "", none, none, none, none, "", 0, none⟩).any
        (·.1 = column) then
      return (0, db)
    else
      throw (.noColumn column)
  | some old =>
    let row ← old.with table column cell
    let others := db.users.filter fun r => r.id != id
    checkNumber table others row
    let undeleted := if row.isDeleted then [] else others.filter fun r => !r.isDeleted
    checkUnique [table ++ ".username"] undeleted fun r => r.username = row.username
    checkUnique [table ++ ".email"] undeleted fun r => r.email = row.email
    if row.id ≠ id ∧ db.sessions.any fun r => r.ownerId = id then throw .danglingOwner
    return (1, { db with users := db.users.replace id row })

def editSession (id : Int) (column : String) (cell : Cell) : Change Nat := fun db => do
  db.requireOpen
  db.require .sessions
  let table := db.names.sessions
  match db.sessions.find? fun r => r.id = id with
  | none =>
    if (SessionRow.columns ⟨0, 0, "", "", "", ""⟩).any (·.1 = column) then
      return (0, db)
    else
      throw (.noColumn column)
  | some old =>
    let row ← old.with table column cell
    let others := db.sessions.filter fun r => r.id != id
    checkNumber table others row
    checkUnique [table ++ ".token"] others fun r => r.token = row.token
    if !db.users.any fun r => r.id = row.ownerId then throw .danglingOwner
    return (1, { db with sessions := db.sessions.replace id row })

def editNamespace (id : Int) (column : String) (cell : Cell) : Change Nat := fun db => do
  db.requireOpen
  db.require .namespaces
  let table := db.names.namespaces
  match db.namespaces.find? fun r => r.id = id with
  | none =>
    if (NamespaceRow.columns ⟨0, 0, 0, ""⟩).any (·.1 = column) then
      return (0, db)
    else
      throw (.noColumn column)
  | some old =>
    let row ← old.with table column cell
    let others := db.namespaces.filter fun r => r.id != id
    checkNumber table others row
    checkUnique [table ++ ".path"] others fun r => r.path = row.path
    checkUnique [table ++ ".owner_id", table ++ ".owner_type"] others fun r =>
      r.ownerId = row.ownerId && r.ownerType = row.ownerType
    return (1, { db with namespaces := db.namespaces.replace id row })

/-- Changes one column of a row of a relation; answers how many rows that were. -/
def edit (relation : Relation) (id : Int) (column : String) (cell : Cell) : Change Nat :=
  match relation with
  | .users => editUser id column cell
  | .sessions => editSession id column cell
  | .namespaces => editNamespace id column cell

def dump (relation : Relation) : Query (List (List (String × Cell))) := fun db => do
  db.requireOpen
  db.require relation
  match relation with
  | .users => return db.users.rows.map UserRow.columns
  | .sessions => return db.sessions.rows.map SessionRow.columns
  | .namespaces => return db.namespaces.rows.map NamespaceRow.columns

end Database

end Gatehouse.Store
