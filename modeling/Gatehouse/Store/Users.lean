import Gatehouse.Store.Namespaces

/-!
# Users in the store

Among the users that are not deleted no two have the same name or the same address. Deleted users keep
their rows but are found by no query here.
-/

namespace Gatehouse.Store

open Gatehouse.Time

/-- The statement that adds a user. It answers the user as made now. -/
def insertUser (now : Instant) (data : NewUser) : Change User := fun db => do
  db.require .users
  if db.users.any fun r =>
      !r.isDeleted && (r.email = data.email || r.username = data.username) then
    throw (.userTaken data.username data.email)
  let id := db.users.nextKey
  let made := db.users.append fun id =>
    { id := id
      email := data.email
      passwordHash := data.passwordHash
      username := data.username
      name := data.name
      publicEmail := if data.publicEmail then 1 else 0
      createdAt := Rfc3339.storedText now
      deletedAt := none
      verifiedAt := none
      lastLoginAt := none
      lastLoginIp := none
      registerIp := data.registerIp
      isAdmin := if data.isAdmin then 1 else 0
      namespaceId := none }
  let user : User :=
    { id := ⟨id⟩
      email := data.email
      username := data.username
      name := data.name
      passwordHash := data.passwordHash
      publicEmail := data.publicEmail
      isAdmin := data.isAdmin
      namespaceId := none
      createdAt := now
      deletedAt := none
      verifiedAt := none
      lastLoginAt := none
      lastLoginIp := none
      registerIp := data.registerIp }
  return (user, { db with users := made })

def updateUsers (p : UserRow → Bool) (f : UserRow → UserRow) : Change Bool := fun db => do
  db.require .users
  return (db.users.any p, { db with users := db.users.modify p f })

/-- The statement that changes one user, deleted or not, who must be there. -/
def updateUser (id : UserId) (f : UserRow → UserRow) : Change Unit := fun db => do
  let (found, db) ← updateUsers (fun r => r.id = id.number) f db
  if found then return ((), db) else throw (.noUser id)

def noteLogin (now : Instant) (id : UserId) (clientIp : String) : Change Unit :=
  updateUser id fun r =>
    { r with lastLoginAt := some (Rfc3339.storedText now), lastLoginIp := some clientIp }

def linkNamespace (id : UserId) (home : NamespaceId) : Change Unit :=
  updateUser id fun r => { r with namespaceId := some home.number }

namespace Database

def createUser (now : Instant) (data : NewUser) : Change User := fun db => do
  db.requireOpen
  insertUser now data db

def userWhere (p : UserRow → Bool) : Query (Option User) := fun db => do
  db.requireOpen
  db.require .users
  (db.users.find? fun r => p r && !r.isDeleted).mapM UserRow.toUser

def userById (id : UserId) : Query (Option User) :=
  userWhere fun r => r.id = id.number

def userByUsername (username : String) : Query (Option User) :=
  userWhere fun r => r.username = username

def userByEmail (email : String) : Query (Option User) :=
  userWhere fun r => r.email = email

/-- Whether a user has the name or the address; an empty one is not asked for. -/
def userExists (username email : String) : Query Bool := fun db => do
  if username ≠ "" then
    if (← userByUsername username db).isSome then return true
  if email ≠ "" then
    if (← userByEmail email db).isSome then return true
  return false

abbrev greatestWord : Nat := Nat.pow 2 64 - 1

/-- The greatest number of rows that a statement can count. -/
abbrev greatestCount : Nat := Nat.pow 2 63 - 1

/-- The users of a page, by rising number; pages count from zero. -/
def userPage (page per : Nat) : Query (List User) := fun db => do
  db.requireOpen
  db.require .users
  let offset := min (min (page * per) greatestWord) greatestCount
  let limit := min per greatestCount
  (((db.users.filter fun r => !r.isDeleted).drop offset).take limit).mapM UserRow.toUser

/-- The administrators with their namespaces, by rising number, as far as one statement can bind them. -/
def admins (binds : Nat) : Query (List UserWithNamespace) := fun db => do
  db.requireOpen
  db.require .users
  let users ← (db.users.filter fun r => r.isAdmin = 1 && !r.isDeleted).mapM UserRow.toUser
  let namespaces ← namespacesByOwners binds .user (ownerIds users) db
  return attachNamespaces namespaces users

def recordLogin (now : Instant) (id : UserId) (clientIp : String) : Change Unit := fun db => do
  db.requireOpen
  noteLogin now id clientIp db

def assignNamespace (id : UserId) (home : NamespaceId) : Change Unit := fun db => do
  db.requireOpen
  linkNamespace id home db

def activate (now : Instant) (id : UserId) : Change Bool := fun db => do
  db.requireOpen
  updateUsers (fun r => r.id = id.number && r.verifiedAt.isNone && !r.isDeleted)
    (fun r => { r with verifiedAt := some (Rfc3339.storedText now) }) db

def softDelete (now : Instant) (id : UserId) : Change Bool := fun db => do
  db.requireOpen
  updateUsers (fun r => r.id = id.number && !r.isDeleted)
    (fun r => { r with deletedAt := some (Rfc3339.storedText now) }) db

/-- The user to whom a token belongs, unless the session has expired or the user is deleted. -/
def userBySession (now : Instant) (token : String) : Query (Option User) := fun db => do
  db.requireOpen
  db.require .users
  db.require .sessions
  let owners := (db.sessions.filter fun r => r.token = token && r.validAt now).map (·.ownerId)
  (db.users.find? fun r => owners.contains r.id && !r.isDeleted).mapM UserRow.toUser

end Database

end Gatehouse.Store
