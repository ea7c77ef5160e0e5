import Gatehouse.Http.Address
import Gatehouse.Text.Blank
import Gatehouse.Text.Octets

/-!
# Headers

What the headers of a request say: the address of the client, and the token of a session in a cookie or
after the word for a bearer. A header that holds anything but visible ASCII characters, blanks and tabs
says nothing.
-/

namespace Gatehouse.Http

open Gatehouse.Text

/-- A header; its name is in lower case. -/
structure Header where
  name : String
  value : List UInt8
  deriving Repr, DecidableEq

def isReadable (o : UInt8) : Bool :=
  (0x20 ≤ o && o < 0x7F) || o == 9

def isSendable (o : UInt8) : Bool :=
  (0x20 ≤ o && o != 0x7F) || o == 9

def readable? (octets : List UInt8) : Option (List Char) :=
  if octets.all isReadable then some (octets.map fun o => Char.ofNat o.toNat) else none

abbrev Headers := List Header

def Header.named (name : String) (value : List UInt8) : Header :=
  ⟨name.toLower, value⟩

namespace Headers

def values (headers : Headers) (name : String) : List (List UInt8) :=
  (headers.filter (·.name = name)).map (·.value)

/-- The text of the first header of a name, if there is one and it is readable. -/
def text? (headers : Headers) (name : String) : Option (List Char) :=
  (headers.values name).head?.bind readable?

def nonEmpty (cs : List Char) : Option String :=
  if cs = [] then none else some (String.ofList cs)

/-- The first of the addresses that proxies have noted, if it is not blank. -/
def forwardedFor (headers : Headers) : Option String := do
  let list ← headers.text? "x-forwarded-for"
  let first ← (pieces ',' list).head?
  nonEmpty (trimChars first)

def clientIp (headers : Headers) (peer : Option Address) : String :=
  match headers.forwardedFor with
  | some address => address
  | none =>
    match peer with
    | some address => address.text
    | none => "unknown"

def bearerToken (headers : Headers) : Option String := do
  let authorization ← headers.text? "authorization"
  let word := ['B', 'e', 'a', 'r', 'e', 'r', ' ']
  if word.isPrefixOf authorization then nonEmpty (trimChars (authorization.drop word.length)) else none

/-- The names and values in all readable cookie headers, in order; parts without a name are skipped. -/
def cookies (headers : Headers) : List (List Char × List Char) :=
  (((headers.values "cookie").filterMap readable?).flatMap (pieces ';')).filterMap fun part =>
    cut '=' (trimChars part)

def cookie (headers : Headers) (name : String) : Option String := do
  let (_, value) ← headers.cookies.find? fun (n, _) => n = name.toList
  nonEmpty value

/-- The token of a session: the cookie goes before the bearer. -/
def sessionToken (headers : Headers) (cookieName : String) : Option String :=
  headers.cookie cookieName <|> headers.bearerToken

end Headers

end Gatehouse.Http
