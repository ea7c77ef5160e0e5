import Gatehouse.Json.Record
import Gatehouse.Json.Value
import Gatehouse.Records.Basic

/-!
# Users, sessions and namespaces in JSON

How answers show a record, and how a record is read back. The password hash of a user is never shown;
it may be given when a user is read.
-/

namespace Gatehouse

open Gatehouse.Time

namespace Json

def ofInstant (t : Instant) : Json :=
  .str (Rfc3339.text t)

def userId : Reader UserId := fun cs =>
  (int64 cs).map fun (n, rest) => (⟨n⟩, rest)

def namespaceId : Reader NamespaceId := fun cs =>
  (int64 cs).map fun (n, rest) => (⟨n⟩, rest)

def ownerKind : Reader OwnerKind :=
  oneOf OwnerKind.words

end Json

/-- A user without its password hash. -/
def User.toJson (u : User) : Json :=
  .obj
    [("id", .int u.id.number),
     ("email", .str u.email),
     ("username", .str u.username),
     ("name", .str u.name),
     ("public_email", .bool u.publicEmail),
     ("is_admin", .bool u.isAdmin),
     ("namespace_id", Json.ofOption (fun n => .int n.number) u.namespaceId),
     ("created_at", Json.ofInstant u.createdAt),
     ("deleted_at", Json.ofOption Json.ofInstant u.deletedAt),
     ("verified_at", Json.ofOption Json.ofInstant u.verifiedAt),
     ("last_login_at", Json.ofOption Json.ofInstant u.lastLoginAt),
     ("last_login_ip", Json.ofOption .str u.lastLoginIp),
     ("register_ip", .str u.registerIp)]

def Session.toJson (s : Session) : Json :=
  .obj
    [("id", .int s.id),
     ("owner_id", .int s.ownerId.number),
     ("token", .str s.token),
     ("client_ip", .str s.clientIp),
     ("created_at", Json.ofInstant s.createdAt),
     ("expired_at", Json.ofInstant s.expiredAt)]

def Namespace.toJson (n : Namespace) : Json :=
  .obj
    [("id", .int n.id.number),
     ("owner_id", .int n.ownerId),
     ("owner_typ", .str n.ownerKind.word),
     ("path", .str n.path)]

def User.blank : User where
  id := ⟨0⟩
  email := ""
  username := ""
  name := ""
  passwordHash := ""
  publicEmail := false
  isAdmin := false
  namespaceId := none
  createdAt := .epoch
  deletedAt := none
  verifiedAt := none
  lastLoginAt := none
  lastLoginIp := none
  registerIp := ""

def Session.blank : Session := ⟨0, ⟨0⟩, "", "", .epoch, .epoch⟩

def Namespace.blank : Namespace := ⟨⟨0⟩, 0, .user, ""⟩

/-- Reads a user; the password hash may be left out, and is empty then. -/
def User.reader : Json.Reader User :=
  Json.record User.blank
    [Json.field "id" .required Json.userId fun u x => { u with id := x },
     Json.field "email" .required Json.string fun u x => { u with email := x },
     Json.field "username" .required Json.string fun u x => { u with username := x },
     Json.field "name" .required Json.string fun u x => { u with name := x },
     Json.field "password_hash" .defaulted Json.string fun u x => { u with passwordHash := x },
     Json.field "public_email" .required Json.boolean fun u x => { u with publicEmail := x },
     Json.field "is_admin" .required Json.boolean fun u x => { u with isAdmin := x },
     Json.field "namespace_id" .nullable (Json.nullable Json.namespaceId)
       fun u x => { u with namespaceId := x },
     Json.field "created_at" .required Json.instant fun u x => { u with createdAt := x },
     Json.field "deleted_at" .nullable (Json.nullable Json.instant)
       fun u x => { u with deletedAt := x },
     Json.field "verified_at" .nullable (Json.nullable Json.instant)
       fun u x => { u with verifiedAt := x },
     Json.field "last_login_at" .nullable (Json.nullable Json.instant)
       fun u x => { u with lastLoginAt := x },
     Json.field "last_login_ip" .nullable (Json.nullable Json.string)
       fun u x => { u with lastLoginIp := x },
     Json.field "register_ip" .required Json.string fun u x => { u with registerIp := x }]

def Session.reader : Json.Reader Session :=
  Json.record Session.blank
    [Json.field "id" .required Json.int64 fun s x => { s with id := x },
     Json.field "owner_id" .required Json.userId fun s x => { s with ownerId := x },
     Json.field "token" .required Json.string fun s x => { s with token := x },
     Json.field "client_ip" .required Json.string fun s x => { s with clientIp := x },
     Json.field "created_at" .required Json.instant fun s x => { s with createdAt := x },
     Json.field "expired_at" .required Json.instant fun s x => { s with expiredAt := x }]

def Namespace.reader : Json.Reader Namespace :=
  Json.record Namespace.blank
    [Json.field "id" .required Json.namespaceId fun n x => { n with id := x },
     Json.field "owner_id" .required Json.int64 fun n x => { n with ownerId := x },
     Json.field "owner_typ" .required Json.ownerKind fun n x => { n with ownerKind := x },
     Json.field "path" .required Json.string fun n x => { n with path := x }]

end Gatehouse
