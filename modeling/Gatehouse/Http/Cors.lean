import Gatehouse.Http.Message

/-!
# Foreign origins

Which pages of other origins may read the answers. Without a list all may; with a list an answer repeats
the origin that asked, if it is on the list.
-/

namespace Gatehouse.Http

open Gatehouse.Text

inductive Cors
  | everyone
  | listed (origins : List String)
  deriving Repr, DecidableEq

namespace Cors

/--
The rule for a list of origins. An empty list admits all; of a list, what cannot stand in a header is
left out. An asterisk cannot stand for all origins among others.
-/
def ofOrigins? (origins : List String) : Option Cors :=
  if origins = [] then
    some everyone
  else
    let sendable := origins.filter fun o => (utf8 o).all isSendable
    if sendable.contains "*" then none else some (listed sendable)

def admitted (origins : List String) (headers : Headers) : List (String × String) :=
  match (headers.values "origin").head? with
  | none => []
  | some origin =>
    match origins.find? fun o => utf8 o = origin with
    | some o => [("access-control-allow-origin", o)]
    | none => []

def onAnswer (cors : Cors) (headers : Headers) : List (String × String) :=
  match cors with
  | everyone => [("access-control-allow-origin", "*"), ("access-control-expose-headers", "*")]
  | listed origins => admitted origins headers

/-- The headers of the answer to a question what may be asked. -/
def onQuestion (cors : Cors) (headers : Headers) : List (String × String) :=
  match cors with
  | everyone =>
    [("access-control-allow-origin", "*"), ("access-control-allow-methods", "*"),
     ("access-control-allow-headers", "*")]
  | listed origins =>
    admitted origins headers
      ++ [("access-control-allow-methods", "GET,POST,OPTIONS"),
          ("access-control-allow-headers", "*")]

end Cors

end Gatehouse.Http
