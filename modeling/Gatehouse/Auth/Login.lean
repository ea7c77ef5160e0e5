import Gatehouse.Json.Record
import Gatehouse.Json.Value
import Gatehouse.Auth.Registration

/-!
# Logins

What someone gives to log in and what comes back, and how both kinds of request are read.
-/

namespace Gatehouse.Auth

/-- By what an account is looked up. -/
inductive Identifier
  | email (address : String)
  | username (name : String)
  deriving Repr, DecidableEq

namespace Identifier

/-- A text with an at sign is an address, any other a name. -/
def ofString (s : String) : Identifier :=
  if s.toList.contains '@' then email s else username s

def text : Identifier → String
  | email s => s
  | username s => s

end Identifier

structure LoginRequest where
  identifier : String
  password : String
  deriving Repr, DecidableEq

structure LoginAnswer where
  token : String
  path : Option String
  name : String
  email : String
  publicEmail : Bool
  deriving Repr, DecidableEq

def LoginRequest.toJson (r : LoginRequest) : Json :=
  .obj [("email", .str r.identifier), ("password", .str r.password)]

def LoginRequest.reader : Json.Reader LoginRequest :=
  Json.record ⟨"", ""⟩
    [Json.field "email" .required Json.string fun r x => { r with identifier := x },
     Json.field "password" .required Json.string fun r x => { r with password := x }]

def LoginAnswer.toJson (a : LoginAnswer) : Json :=
  .obj
    [("token", .str a.token),
     ("namespace_path", Json.ofOption .str a.path),
     ("name", .str a.name),
     ("email", .str a.email),
     ("public_email", .bool a.publicEmail)]

def LoginAnswer.reader : Json.Reader LoginAnswer :=
  Json.record ⟨"", none, "", "", false⟩
    [Json.field "token" .required Json.string fun a x => { a with token := x },
     Json.field "namespace_path" .nullable (Json.nullable Json.string)
       fun a x => { a with path := x },
     Json.field "name" .required Json.string fun a x => { a with name := x },
     Json.field "email" .required Json.string fun a x => { a with email := x },
     Json.field "public_email" .required Json.boolean fun a x => { a with publicEmail := x }]

def Registration.toJson (r : Registration) : Json :=
  .obj
    [("email", .str r.email),
     ("username", .str r.username),
     ("name", .str r.name),
     ("password", .str r.password),
     ("public_email", .bool r.publicEmail)]

/-- Reads a registration; the shown name and the public address may be left out. -/
def Registration.reader : Json.Reader Registration :=
  Json.record ⟨"", "", "", "", false⟩
    [Json.field "email" .required Json.string fun r x => { r with email := x },
     Json.field "username" .required Json.string fun r x => { r with username := x },
     Json.field "name" .defaulted Json.string fun r x => { r with name := x },
     Json.field "password" .required Json.string fun r x => { r with password := x },
     Json.field "public_email" .defaulted Json.boolean fun r x => { r with publicEmail := x }]

end Gatehouse.Auth
