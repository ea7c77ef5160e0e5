import Gatehouse.Records.Basic
import Gatehouse.Store.Error

/-!
# Rows

What the tables hold. Instants are kept as text, flags and kinds of owner as numbers, so a row can hold
what stands for no record; reading a row says which column is at fault.
-/

namespace Gatehouse.Store

open Gatehouse.Text Gatehouse.Time

inductive Cell
  | null
  | int (n : Int)
  | text (s : String)
  deriving Repr, DecidableEq

def Cell.ofText? : Option String → Cell
  | none => .null
  | some s => .text s

def Cell.ofInt? : Option Int → Cell
  | none => .null
  | some n => .int n

structure UserRow where
  id : Int
  email : String
  passwordHash : String
  username : String
  name : String
  publicEmail : Int
  createdAt : String
  deletedAt : Option String
  verifiedAt : Option String
  lastLoginAt : Option String
  lastLoginIp : Option String
  registerIp : String
  isAdmin : Int
  namespaceId : Option Int
  deriving Repr, DecidableEq

structure SessionRow where
  id : Int
  ownerId : Int
  token : String
  clientIp : String
  createdAt : String
  expiredAt : String
  deriving Repr, DecidableEq

structure NamespaceRow where
  id : Int
  ownerId : Int
  ownerType : Int
  path : String
  deriving Repr, DecidableEq

def instantOf (column text : String) : Except Error Instant :=
  match Rfc3339.read text.toList with
  | .ok t => .ok t
  | .error fault => .error (.badInstant column fault)

def instantOf? (column : String) : Option String → Except Error (Option Instant)
  | none => .ok none
  | some text => (instantOf column text).map some

namespace UserRow

def isDeleted (r : UserRow) : Bool :=
  r.deletedAt.isSome

def columns (r : UserRow) : List (String × Cell) :=
  [("id", .int r.id), ("email", .text r.email), ("encrypted_password", .text r.passwordHash),
   ("username", .text r.username), ("name", .text r.name), ("public_email", .int r.publicEmail),
   ("created_at", .text r.createdAt), ("deleted_at", .ofText? r.deletedAt),
   ("verified_at", .ofText? r.verifiedAt), ("last_login_at", .ofText? r.lastLoginAt),
   ("last_login_ip", .ofText? r.lastLoginIp), ("register_ip", .text r.registerIp),
   ("is_admin", .int r.isAdmin), ("namespace_id", .ofInt? r.namespaceId)]

/-- The user of a row. A flag is set when its number is not zero. -/
def toUser (r : UserRow) : Except Error User := do
  let createdAt ← instantOf "created_at" r.createdAt
  let deletedAt ← instantOf? "deleted_at" r.deletedAt
  let verifiedAt ← instantOf? "verified_at" r.verifiedAt
  let lastLoginAt ← instantOf? "last_login_at" r.lastLoginAt
  return {
    id := ⟨r.id⟩
    email := r.email
    username := r.username
    name := r.name
    passwordHash := r.passwordHash
    publicEmail := r.publicEmail != 0
    isAdmin := r.isAdmin != 0
    namespaceId := r.namespaceId.map NamespaceId.mk
    createdAt := createdAt
    deletedAt := deletedAt
    verifiedAt := verifiedAt
    lastLoginAt := lastLoginAt
    lastLoginIp := r.lastLoginIp
    registerIp := r.registerIp }

end UserRow

namespace SessionRow

def columns (r : SessionRow) : List (String × Cell) :=
  [("id", .int r.id), ("owner_id", .int r.ownerId), ("token", .text r.token),
   ("client_ip", .text r.clientIp), ("created_at", .text r.createdAt),
   ("expired_at", .text r.expiredAt)]

def toSession (r : SessionRow) : Except Error Session := do
  let createdAt ← instantOf "created_at" r.createdAt
  let expiredAt ← instantOf "expired_at" r.expiredAt
  return {
    id := r.id
    ownerId := ⟨r.ownerId⟩
    token := r.token
    clientIp := r.clientIp
    createdAt := createdAt
    expiredAt := expiredAt }

/-- A row is found up to the text of its expiry, character by character. -/
def validAt (r : SessionRow) (now : Instant) : Bool :=
  Rfc3339.storedText now ≤ r.expiredAt

end SessionRow

namespace NamespaceRow

def columns (r : NamespaceRow) : List (String × Cell) :=
  [("id", .int r.id), ("owner_id", .int r.ownerId), ("owner_type", .int r.ownerType),
   ("path", .text r.path)]

def toNamespace (r : NamespaceRow) : Except Error Namespace :=
  match OwnerKind.ofCode? r.ownerType with
  | some kind => .ok { id := ⟨r.id⟩, ownerId := r.ownerId, ownerKind := kind, path := r.path }
  | none => .error (.badOwnerKind r.ownerType)

def ownedBy (r : NamespaceRow) (owner : Int) (kind : OwnerKind) : Bool :=
  r.ownerId = owner && r.ownerType = kind.code

end NamespaceRow

end Gatehouse.Store
