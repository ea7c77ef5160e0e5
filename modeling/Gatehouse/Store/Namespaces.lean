import Gatehouse.Store.Database

/-!
# Namespaces in the store

No two namespaces have the same path, and an owner of a kind has at most one.
-/

namespace Gatehouse.Store

/-- How many values a statement binds at most, in an engine that was not built with another bound. -/
def usualBinds : Nat := 32766

def insertNamespace (data : NewNamespace) : Change Namespace := fun db => do
  db.require .namespaces
  if db.namespaces.any fun r => r.path = data.path || r.ownedBy data.ownerId data.ownerKind then
    throw (.namespaceTaken data.path data.ownerId)
  let id := db.namespaces.nextKey
  let made := db.namespaces.append fun id => ⟨id, data.ownerId, data.ownerKind.code, data.path⟩
  return (⟨⟨id⟩, data.ownerId, data.ownerKind, data.path⟩, { db with namespaces := made })

def namespaceOwnedBy (owner : Int) (kind : OwnerKind) : Query (Option Namespace) := fun db => do
  db.require .namespaces
  (db.namespaces.find? fun r => r.ownedBy owner kind).mapM NamespaceRow.toNamespace

namespace Database

def createNamespace (data : NewNamespace) : Change Namespace := fun db => do
  db.requireOpen
  insertNamespace data db

def namespaceById (id : NamespaceId) : Query (Option Namespace) := fun db => do
  db.requireOpen
  db.require .namespaces
  (db.namespaces.find? fun r => r.id = id.number).mapM NamespaceRow.toNamespace

def namespaceByOwner (owner : Int) (kind : OwnerKind) : Query (Option Namespace) := fun db => do
  db.requireOpen
  namespaceOwnedBy owner kind db

/--
The namespaces of some owners of a kind, by rising number; without owners nothing is asked. One
statement binds the kind and every owner, and the engine binds no more than `binds` values: for more it
refuses the statement, before it looks for the table.
-/
def namespacesByOwners (binds : Nat) (kind : OwnerKind) (owners : List Int) :
    Query (List Namespace) := fun db =>
  if owners = [] then
    .ok []
  else do
    db.requireOpen
    if binds < owners.length + 1 then throw .tooManyValues
    db.require .namespaces
    (db.namespaces.filter fun r => r.ownerType = kind.code && owners.contains r.ownerId).mapM
      NamespaceRow.toNamespace

end Database

end Gatehouse.Store
