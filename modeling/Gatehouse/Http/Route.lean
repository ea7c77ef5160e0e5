import Gatehouse.Text.Decimal
import Gatehouse.Text.Percent

/-!
# Routes

What can be asked for, told by the path of a request. Paths are compared as they are written, letter by
letter; only the number of a user may be percent-encoded.
-/

namespace Gatehouse.Http

open Gatehouse.Text

inductive Route
  | login
  | register
  | me
  | users
  /-- The activation of a user, told by the text where the number must stand. -/
  | activate (segment : List Char)
  | admins
  | health
  deriving Repr, DecidableEq

namespace Route

/-- The route of a path; reports on health may be left out. -/
def ofPath? (withHealth : Bool) (path : List Char) : Option Route :=
  match (pieces '/' path).map String.ofList with
  | ["", "v1", "login"] => some login
  | ["", "v1", "register"] => some register
  | ["", "v1", "me"] => some me
  | ["", "v1", "users"] => some users
  | ["", "v1", "users", segment, "activate"] => some (activate segment.toList)
  | ["", "v1", "admins"] => some admins
  | ["", "health"] => if withHealth then some health else none
  | _ => none

/-- Whether a route changes something; all others are only read. -/
def isPosted : Route → Bool
  | login | register | activate _ => true
  | me | users | admins | health => false

def allowed (route : Route) : String :=
  if route.isPosted then "POST" else "GET,HEAD"

def takes (route : Route) (method : String) : Bool :=
  if route.isPosted then method = "POST" else method = "GET" || method = "HEAD"

def userNumber? (segment : List Char) : Option Int :=
  (Decimal.int? (Percent.decode segment)).filter fun n =>
    -9223372036854775808 ≤ n && n ≤ 9223372036854775807

end Route

end Gatehouse.Http
