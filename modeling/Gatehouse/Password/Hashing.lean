import Gatehouse.Password.Phc

/-!
# Hashing and verifying passwords

Both are said for any function from a job to a tag. A new hash is made with fixed costs; a stored one is
verified with the function, version, costs and length that it names itself, and with fixed ones where it
names none.
-/

namespace Gatehouse.Password

open Gatehouse.Text

/-- Makes a tag of the asked length. -/
abbrev Derivation := Argon2.Job → List UInt8

inductive Fault
  /-- The stored text is no hash. -/
  | unreadable (fault : PhcFault)
  /-- The stored hash asks for what cannot be done. -/
  | refused (fault : PhcFault)
  /-- A fault in words of its own. -/
  | described (words : String)
  deriving Repr, DecidableEq

def Fault.message : Fault → String
  | unreadable fault => "Ungueltiges Hash-Format: " ++ fault.message
  | refused fault => fault.message
  | described words => words

structure Costs where
  memory : Nat
  passes : Nat
  lanes : Nat
  data : List UInt8
  deriving Repr, DecidableEq

/-- The costs of a stored hash that names none. -/
def Costs.unnamed : Costs := ⟨19456, 2, 1, []⟩

def Costs.standard : Costs := ⟨65536, 3, 1, []⟩

/-- Costs with one parameter taken into account. A key number is read, but means nothing. -/
def Costs.with (costs : Costs) (name value : List Char) : Except PhcFault Costs :=
  let number := (Phc.decimal value).mapError PhcFault.badValue
  if name = ['m'] then return { costs with memory := ← number }
  else if name = ['t'] then return { costs with passes := ← number }
  else if name = ['p'] then return { costs with lanes := ← number }
  else if name = ['k', 'e', 'y', 'i', 'd'] then do
    let _ ← Phc.bounded 8 value
    return costs
  else if name = ['d', 'a', 't', 'a'] then return { costs with data := ← Phc.bounded 32 value }
  else throw .badName

/-- Costs within their bounds; the product of eight and the lanes is taken in 32 bits. -/
def Costs.check (costs : Costs) : Except PhcFault Unit :=
  if costs.memory < 8 ∨ costs.memory < 8 * costs.lanes % Nat.pow 2 32 ∨ costs.passes < 1 ∨ costs.lanes < 1
  then .error (.badValue .tooShort)
  else if 0xFFFFFF < costs.lanes then .error (.badValue .tooLong)
  else .ok ()

/-- The costs that parameters name; of two for the same cost the last counts. -/
def Costs.ofParameters (parameters : List (List Char × List Char)) : Except PhcFault Costs := do
  let costs ← parameters.foldlM (fun costs (n, v) => costs.with n v) .unnamed
  costs.check
  return costs

def variantOf (name : List Char) : Except PhcFault Argon2.Variant :=
  match [Argon2.Variant.d, .i, .id].find? fun v => v.name.toList = name with
  | some v => .ok v
  | none => .error .unknownFunction

def versionOf : Option Nat → Except PhcFault Argon2.Version
  | none => .ok .newer
  | some n =>
    match [Argon2.Version.older, .newer].find? fun v => v.number = n with
    | some v => .ok v
    | none => .error .unknownVersion

def saltOf (cs : List Char) : Except PhcFault (List UInt8) :=
  match Base64.decode Base64.standard cs with
  | none => .error .badBase64
  | some octets => if octets.length < 8 then .error (.badSalt .tooShort) else .ok octets

def jobOf (hash : Phc) (salt : List Char) (password : String) (length : Nat) :
    Except PhcFault Argon2.Job := do
  let costs ← Costs.ofParameters hash.parameters
  let variant ← variantOf hash.function
  let version ← versionOf hash.version
  let salt ← saltOf salt
  return {
    variant := variant
    version := version
    memory := costs.memory
    passes := costs.passes
    lanes := costs.lanes
    data := costs.data
    salt := salt
    password := utf8 password
    length := length }

/-- Whether a password has a stored hash. One without salt or tag is of no password. -/
def verify (derive : Derivation) (password stored : String) : Except Fault Bool :=
  match Phc.read stored.toList with
  | .error fault => .error (.unreadable fault)
  | .ok hash =>
    match hash.salt, hash.tag with
    | some salt, some tag =>
      match jobOf hash salt password tag.length with
      | .error fault => .error (.refused fault)
      | .ok job => .ok (derive job = tag)
    | _, _ => .ok false

def newJob (password : String) (salt : List UInt8) : Argon2.Job where
  variant := .id
  version := .newer
  memory := Costs.standard.memory
  passes := Costs.standard.passes
  lanes := Costs.standard.lanes
  data := []
  salt := salt
  password := utf8 password
  length := 32

def phcOf (job : Argon2.Job) (tag : List UInt8) : Phc where
  function := job.variant.name.toList
  version := some job.version.number
  parameters :=
    [(['m'], Decimal.digits job.memory), (['t'], Decimal.digits job.passes),
     (['p'], Decimal.digits job.lanes)]
  salt := some (Base64.encode Base64.standard job.salt)
  tag := some tag

def hash (derive : Derivation) (password : String) (salt : List UInt8) : String :=
  let job := newJob password salt
  String.ofList (phcOf job (derive job)).write

end Gatehouse.Password
