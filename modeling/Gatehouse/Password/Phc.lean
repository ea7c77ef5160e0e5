import Gatehouse.Password.Argon2
import Gatehouse.Text.Base64
import Gatehouse.Text.Decimal
import Gatehouse.Text.Octets
import Gatehouse.Text.Pieces

/-!
# Stored password hashes

A stored hash is a text of fields, each with a dollar sign in front: the function, its version, its
parameters, the salt and the tag. All but the first may be missing. Reading takes the fields from left
to right and reports the first fault; what the fields mean for a function is asked later.
-/

namespace Gatehouse.Password

open Gatehouse.Text

inductive ValueFault
  | badChar (c : Char)
  | badFormat
  | malformed
  | tooLong
  | tooShort
  deriving Repr, DecidableEq

def ValueFault.message : ValueFault → String
  | badChar c => "contains invalid character: '" ++ String.singleton c ++ "'"
  | badFormat => "value format is invalid"
  | malformed => "value malformed"
  | tooLong => "value to long"
  | tooShort => "value to short"

inductive PhcFault
  | missingField
  | trailingField
  | unknownFunction
  | unknownVersion
  | badBase64
  | badBase64Length
  | badName
  | tooManyParameters
  | tagTooShort
  | badValue (fault : ValueFault)
  | badSalt (fault : ValueFault)
  deriving Repr, DecidableEq

def PhcFault.message : PhcFault → String
  | missingField => "password hash string missing field"
  | trailingField => "password hash string contains trailing characters"
  | unknownFunction => "unsupported algorithm"
  | unknownVersion => "invalid algorithm version"
  | badBase64 => "invalid Base64 encoding"
  | badBase64Length => "invalid Base64 length"
  | badName => "invalid parameter name"
  | tooManyParameters => "maximum number of parameters reached"
  | tagTooShort => "output size too short, expected at least 10 bytes"
  | badValue fault => "invalid parameter value: " ++ fault.message
  | badSalt fault => "salt invalid: " ++ fault.message

/-- A stored hash, field by field. Salt and values of parameters are kept as they are written. -/
structure Phc where
  function : List Char
  version : Option Nat
  parameters : List (List Char × List Char)
  salt : Option (List Char)
  tag : Option (List UInt8)
  deriving Repr, DecidableEq

namespace Phc

def isName (cs : List Char) : Bool :=
  cs ≠ [] && octetCount cs ≤ 32 && cs.all fun c => c.isLower || c.isDigit || c = '-'

def name (cs : List Char) : Except PhcFault (List Char) :=
  if isName cs then .ok cs else .error .badName

def isValueChar (c : Char) : Bool :=
  c.isAlphanum || c = '/' || c = '+' || c = '.' || c = '-'

/-- A value: up to 64 of its characters. -/
def value (cs : List Char) : Except ValueFault (List Char) :=
  if 64 < octetCount cs then .error .tooLong
  else
    match cs.find? fun c => !isValueChar c with
    | some c => .error (.badChar c)
    | none => .ok cs

/-- The number that a value stands for: digits, no superfluous zero, at most 32 bits. -/
def decimal (cs : List Char) : Except ValueFault Nat :=
  if cs = [] then .error .malformed
  else
    match cs.find? fun c => !c.isDigit with
    | some c => .error (.badChar c)
    | none =>
      if cs.head? = some '0' ∧ 1 < cs.length then .error .badFormat
      else if Nat.pow 2 32 ≤ Decimal.value cs then .error .badFormat
      else .ok (Decimal.value cs)

def parameter (cs : List Char) : Except PhcFault (List Char × List Char) :=
  match pieces '=' cs with
  | [] => .error .badName
  | n :: rest => do
    let n ← name n
    match rest with
    | [] => throw (.badValue .malformed)
    | v :: more =>
      let v ← (value v).mapError .badValue
      if more ≠ [] then throw (.badValue .malformed)
      return (n, v)

def parameterList (cs : List Char) : Except PhcFault (List (List Char × List Char)) :=
  if 127 < octetCount cs then .error .tooManyParameters
  else (pieces ',' cs).mapM parameter

def saltText (cs : List Char) : Except PhcFault (List Char) :=
  if octetCount cs < 4 then .error (.badSalt .tooShort)
  else (value cs).mapError .badSalt

def bounded (most : Nat) (cs : List Char) : Except PhcFault (List UInt8) :=
  if most < Base64.decodedLength (octetCount cs) then .error .badBase64Length
  else
    match Base64.decode Base64.standard cs with
    | some octets => .ok octets
    | none => .error .badBase64

def tagOf (cs : List Char) : Except PhcFault (List UInt8) := do
  let octets ← bounded 64 cs
  if octets.length < 10 then throw .tagTooShort
  return octets

/-- The version, if the first of some fields gives it, and the fields after it. -/
def takeVersion : List (List Char) → Except PhcFault (Option Nat × List (List Char))
  | ('v' :: '=' :: v) :: fields =>
    if v.contains ',' then
      .ok (none, ('v' :: '=' :: v) :: fields)
    else do
      let v ← (value v).mapError .badValue
      return (some (← (decimal v).mapError .badValue), fields)
  | fields => .ok (none, fields)

def takeParameters :
    List (List Char) → Except PhcFault (List (List Char × List Char) × List (List Char))
  | [] => .ok ([], [])
  | field :: fields =>
    if field.contains '=' then do
      return (← parameterList field, fields)
    else
      .ok ([], field :: fields)

def read (cs : List Char) : Except PhcFault Phc :=
  match pieces '$' cs with
  | [] :: function :: fields => do
    let function ← name function
    let (version, fields) ← takeVersion fields
    let (parameters, fields) ← takeParameters fields
    let hash : Phc := ⟨function, version, parameters, none, none⟩
    match fields with
    | [] => return hash
    | salt :: fields =>
      let hash := { hash with salt := some (← saltText salt) }
      match fields with
      | [] => return hash
      | tag :: fields =>
        let hash := { hash with tag := some (← tagOf tag) }
        if fields ≠ [] then throw .trailingField
        return hash
  | _ => .error .missingField

def write (hash : Phc) : List Char :=
  let parameters := hash.parameters.map fun (n, v) => n ++ '=' :: v
  '$' :: hash.function
    ++ (match hash.version with
      | some v => ['$', 'v', '='] ++ Decimal.digits v
      | none => [])
    ++ (if parameters = [] then [] else '$' :: [','].intercalate parameters)
    ++ (match hash.salt with
      | some s => '$' :: s
      | none => [])
    ++ (match hash.tag with
      | some t => '$' :: Base64.encode Base64.standard t
      | none => [])

end Phc

end Gatehouse.Password
