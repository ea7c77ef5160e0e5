import Gatehouse.Store.Sessions
import Gatehouse.Store.Users

/-!
# Login and registration as one change

A login notes itself at the user and adds the session. A registration adds the user and gives it the
namespace of its name: a path that belongs to a deleted user is taken over, and every other path is new.
-/

namespace Gatehouse.Store

open Gatehouse.Time

def Database.ownerDeleted (db : Database) (owner : Int) : Bool :=
  db.users.any fun r => r.id = owner && r.isDeleted

/--
The statements by which a user takes over the namespace of a path from a deleted user. Deleted users
are no longer linked to it then. Without such a namespace nothing happens.
-/
def takeOverNamespace (path : String) (owner : Int) : Change (Option Namespace) := fun db => do
  db.require .namespaces
  db.require .users
  let free (r : NamespaceRow) : Bool :=
    r.path = path && r.ownerType = OwnerKind.user.code && db.ownerDeleted r.ownerId
  if !db.namespaces.any free then
    return (none, db)
  if db.namespaces.any fun r => r.ownedBy owner .user && !free r then
    throw (.ownerTaken owner)
  let db := { db with namespaces := db.namespaces.modify free fun r => { r with ownerId := owner } }
  match ← namespaceOwnedBy owner .user db with
  | none => return (none, db)
  | some home =>
    let (_, db) ← updateUsers (fun r => r.isDeleted && r.namespaceId = some home.id.number)
      (fun r => { r with namespaceId := none }) db
    return (some home, db)

structure LoginResult where
  session : Session
  home : Option Namespace
  deriving Repr, DecidableEq

namespace Database

def commitLogin (now : Instant) (id : UserId) (clientIp : String) (data : NewSession) :
    Change LoginResult := fun db => do
  db.requireOpen
  let ((), db) ← noteLogin now id clientIp db
  let (session, db) ← insertSession data db
  let home ← namespaceOwnedBy id.number .user db
  return (⟨session, home⟩, db)

def commitRegistration (now : Instant) (data : NewUser) (path : String) :
    Change UserWithNamespace := fun db => do
  db.requireOpen
  let (user, db) ← insertUser now data db
  let (home, db) ←
    match ← takeOverNamespace path user.id.number db with
    | (some home, db) => pure (home, db)
    | (none, db) => insertNamespace ⟨user.id.number, .user, path⟩ db
  let ((), db) ← linkNamespace user.id home.id db
  return (⟨{ user with namespaceId := some home.id }, some home⟩, db)

end Database

end Gatehouse.Store
