import Gatehouse.Auth.Error
import Gatehouse.Http.Header
import Gatehouse.Json.Value

/-!
# Requests and answers

An answer has a status and mostly a body in JSON; a refusal is one with the status and the reason. What
goes wrong inside is not told to the client.
-/

namespace Gatehouse.Http

/-- A request, of which the other side may be unknown. -/
structure Request where
  method : String
  path : List Char
  query : List Char
  headers : Headers
  /-- The octets of the body, which need not be those of a text. -/
  body : List UInt8
  peer : Option Address
  deriving Repr, DecidableEq

inductive Body
  | empty
  | text (words : String)
  | json (value : Json)
  deriving Repr

structure Response where
  status : Nat
  body : Body
  contentType : Option String := none
  cookies : List String := []
  allow : Option String := none
  /-- Who may read the answer, as headers. -/
  access : List (String × String) := []
  deriving Repr

namespace Response

def json (status : Nat) (value : Json) : Response :=
  { status := status, body := .json value, contentType := some "application/json" }

def text (status : Nat) (words : String) : Response :=
  { status := status, body := .text words, contentType := some "text/plain; charset=utf-8" }

def empty (status : Nat) : Response :=
  { status := status, body := .empty }

def refusal (status : Nat) (reason : String) : Response :=
  json status (.obj [("error", .obj [("code", .int status), ("message", .str reason)])])

end Response

def statusOf : Auth.Error → Nat
  | .unknown _ => 404
  | .notVerified => 403
  | .wrongPassword | .rejected _ => 400
  | .taken => 409
  | .noSession => 401
  | .password _ | .store _ => 500

/-- The answer to a refusal by the service; what went wrong inside stays there. -/
def Response.ofError (e : Auth.Error) : Response :=
  let status := statusOf e
  .refusal status (if 500 ≤ status then "Interner Serverfehler" else e.message)

end Gatehouse.Http
