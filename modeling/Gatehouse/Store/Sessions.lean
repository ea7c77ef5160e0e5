import Gatehouse.Store.Database

/-!
# Sessions in the store

No two sessions have the same token, and each belongs to a user that has a row, deleted or not.
-/

namespace Gatehouse.Store

open Gatehouse.Time

/-- The statement that adds a session. It answers the session as it was given. -/
def insertSession (data : NewSession) : Change Session := fun db => do
  db.require .sessions
  if Relation.users ∈ db.missing then
    throw (.noTable ("main." ++ db.names.users))
  if db.sessions.any fun r => r.token = data.token then
    throw .tokenTaken
  if !db.users.any fun r => r.id = data.ownerId.number then
    throw .danglingOwner
  let id := db.sessions.nextKey
  let made := db.sessions.append fun id =>
    { id := id
      ownerId := data.ownerId.number
      token := data.token
      clientIp := data.clientIp
      createdAt := Rfc3339.storedText data.createdAt
      expiredAt := Rfc3339.storedText data.expiredAt }
  return (⟨id, data.ownerId, data.token, data.clientIp, data.createdAt, data.expiredAt⟩,
    { db with sessions := made })

namespace Database

def createSession (data : NewSession) : Change Session := fun db => do
  db.requireOpen
  insertSession data db

def validSession (now : Instant) (token : String) : Query (Option Session) := fun db => do
  db.requireOpen
  db.require .sessions
  (db.sessions.find? fun r => r.token = token && r.validAt now).mapM SessionRow.toSession

end Database

end Gatehouse.Store
