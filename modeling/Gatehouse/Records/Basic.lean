import Gatehouse.Identity
import Gatehouse.Time.Instant

/-!
# Users, sessions and namespaces

What the store hands out about an account, a session and a namespace, and what it takes to make new
ones. A user is active once verified; a deleted user keeps its row. A session is valid up to and
including the instant at which it expires.
-/

namespace Gatehouse

open Gatehouse.Time

structure User where
  id : UserId
  email : String
  username : String
  name : String
  passwordHash : String
  publicEmail : Bool
  isAdmin : Bool
  namespaceId : Option NamespaceId
  createdAt : Instant
  deletedAt : Option Instant
  verifiedAt : Option Instant
  lastLoginAt : Option Instant
  lastLoginIp : Option String
  registerIp : String
  deriving Repr, DecidableEq

def User.isVerified (u : User) : Bool :=
  u.verifiedAt.isSome

def User.isDeleted (u : User) : Bool :=
  u.deletedAt.isSome

/-- What a new user is made from; verification, deletion and logins come later. -/
structure NewUser where
  email : String
  username : String
  name : String
  passwordHash : String
  publicEmail : Bool
  isAdmin : Bool
  registerIp : String
  deriving Repr, DecidableEq

structure Session where
  id : Int
  ownerId : UserId
  token : String
  clientIp : String
  createdAt : Instant
  expiredAt : Instant
  deriving Repr, DecidableEq

/-- A session is valid at an instant that is not after its expiry. -/
def Session.validAt (s : Session) (t : Instant) : Bool :=
  t ≤ s.expiredAt

structure NewSession where
  ownerId : UserId
  token : String
  clientIp : String
  createdAt : Instant
  expiredAt : Instant
  deriving Repr, DecidableEq

/-- A namespace as the store knows it. Its owner is a user or an organisation of that number. -/
structure Namespace where
  id : NamespaceId
  ownerId : Int
  ownerKind : OwnerKind
  path : String
  deriving Repr, DecidableEq

structure NewNamespace where
  ownerId : Int
  ownerKind : OwnerKind
  path : String
  deriving Repr, DecidableEq

structure UserWithNamespace where
  user : User
  home : Option Namespace
  deriving Repr, DecidableEq

def UserWithNamespace.path (u : UserWithNamespace) : Option String :=
  u.home.map (·.path)

def ownerIds (users : List User) : List Int :=
  users.map (·.id.number)

/--
Gives each user the namespace filed under its number: of several the last, and to the first user of
that number only.
-/
def attachNamespaces (namespaces : List Namespace) : List User → List UserWithNamespace
  | [] => []
  | u :: users =>
    ⟨u, namespaces.reverse.find? (·.ownerId = u.id.number)⟩
      :: attachNamespaces (namespaces.filter (·.ownerId ≠ u.id.number)) users

end Gatehouse
