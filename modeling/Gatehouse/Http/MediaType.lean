import Gatehouse.Http.Header

/-!
# Media types

What kind of content a request says it brings. A type and a subtype, of which the part after the last
plus sign is the suffix; parameters after semicolons are checked for their form only.
-/

namespace Gatehouse.Http

structure MediaType where
  type : List Char
  subtype : List Char
  suffix : Option (List Char)
  deriving Repr, DecidableEq

namespace MediaType

def isTokenChar (c : Char) : Bool :=
  c.isAlphanum || ['!', '#', '$', '%', '&', Char.ofNat 39, '*', '+', '-', '.', '^', '_', Char.ofNat 96,
    '|', '~'].contains c

def isQuotedChar (c : Char) : Bool :=
  32 ≤ c.toNat && c.toNat != 127

/-- Where in the parameters a reader stands. -/
inductive Place
  /-- After a semicolon or a blank after it. -/
  | start
  /-- In a name. -/
  | name
  /-- After the equals sign. -/
  | value
  /-- In a value without quotes. -/
  | token
  /-- After the opening quote; another quote here does not close. -/
  | quote
  /-- Between quotes. -/
  | quoted
  /-- After the closing quote. -/
  | closed

def Place.next (place : Place) (c : Char) : Option Place :=
  match place with
  | .start => if c = ' ' then some .start else if isTokenChar c then some .name else none
  | .name => if c = '=' then some .value else if isTokenChar c then some .name else none
  | .value => if c = '"' then some .quote else if isTokenChar c then some .token else none
  | .token => if c = ';' then some .start else if isTokenChar c then some .token else none
  | .quote => if isQuotedChar c then some .quoted else none
  | .quoted => if c = '"' then some .closed else if isQuotedChar c then some .quoted else none
  | .closed => if c = ';' then some .start else if c = ' ' then some .closed else none

def Place.mayEnd : Place → Bool
  | .start | .value | .token | .closed => true
  | .name | .quote | .quoted => false

/-- Whether what follows the first semicolon are parameters. -/
def isParameters (cs : List Char) : Bool :=
  match cs.foldlM Place.next .start with
  | some place => place.mayEnd
  | none => false

/-- Cuts at the last plus sign that is not the first character. -/
def cutSuffix (cs : List Char) : List Char × Option (List Char) :=
  match cs with
  | [] => ([], none)
  | first :: rest =>
    match Text.cut '+' rest.reverse with
    | some (suffix, subtype) => (first :: subtype.reverse, some suffix.reverse)
    | none => (cs, none)

def read (cs : List Char) : Option MediaType := do
  let (type, rest) ← Text.cut '/' cs
  let (sub, parameters) :=
    match Text.cut ';' rest with
    | some (sub, parameters) => (sub, some parameters)
    | none => (rest, none)
  let formed :=
    match parameters with
    | some parameters => sub ≠ [] && isParameters parameters
    | none => true
  if type ≠ [] ∧ type.all isTokenChar ∧ sub.all isTokenChar ∧ formed then
    let (subtype, suffix) := cutSuffix (sub.map Char.toLower)
    some ⟨type.map Char.toLower, subtype, suffix⟩
  else
    none

def isJson (t : MediaType) : Bool :=
  let json := ['j', 's', 'o', 'n']
  t.type = "application".toList && (t.subtype = json || t.suffix = some json)

end MediaType

def Headers.bringJson (headers : Headers) : Bool :=
  match (headers.text? "content-type").bind MediaType.read with
  | some t => t.isJson
  | none => false

end Gatehouse.Http
