import Gatehouse.Records.Json

/-!
# Profiles

What others see of a user. The address is shown only where the user has made it public or the asker may
see it anyway.
-/

namespace Gatehouse.Http

open Gatehouse.Time

structure Profile where
  id : UserId
  username : String
  name : String
  email : Option String
  isAdmin : Bool
  verified : Bool
  path : Option String
  createdAt : Instant
  lastLoginAt : Option Instant
  deriving Repr, DecidableEq

namespace Profile

def ofUser (u : User) (path : Option String) (showEmail : Bool) : Profile where
  id := u.id
  username := u.username
  name := u.name
  email := if showEmail || u.publicEmail then some u.email else none
  isAdmin := u.isAdmin
  verified := u.isVerified
  path := path
  createdAt := u.createdAt
  lastLoginAt := u.lastLoginAt

/-- A profile; a hidden address has no member. -/
def toJson (p : Profile) : Json :=
  .obj
    ([("id", .int p.id.number), ("username", .str p.username), ("name", .str p.name)]
      ++ (p.email.map fun e => ("email", Json.str e)).toList
      ++ [("is_admin", .bool p.isAdmin),
          ("verified", .bool p.verified),
          ("namespace_path", Json.ofOption .str p.path),
          ("created_at", Json.ofInstant p.createdAt),
          ("last_login_at", Json.ofOption Json.ofInstant p.lastLoginAt)])

end Profile

end Gatehouse.Http
