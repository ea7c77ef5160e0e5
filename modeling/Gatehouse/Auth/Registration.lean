import Gatehouse.Text.Blank
import Gatehouse.Text.Octets

/-!
# Registrations

What someone gives to get an account, and the rules that it must keep: blanks around name and address do
not count, the name will be a path and may hold only a few characters, and the address is told from a
name by its at sign.
-/

namespace Gatehouse.Auth

open Gatehouse.Text

structure Registration where
  email : String
  username : String
  name : String
  password : String
  publicEmail : Bool
  deriving Repr, DecidableEq

inductive Rejection
  | noUsername
  | longUsername
  | badUsername (username : String)
  | badEmail (email : String)
  | noPassword
  /-- A reason in words of its own. -/
  | described (words : String)
  deriving Repr, DecidableEq

def Rejection.message : Rejection → String
  | noUsername => "Benutzername fehlt"
  | longUsername => "Benutzername laenger als 40 Zeichen"
  | badUsername username => "Benutzername '" ++ username ++ "' enthaelt ungueltige Zeichen"
  | badEmail email => "Ungueltige E-Mail-Adresse '" ++ email ++ "'"
  | noPassword => "Passwort fehlt"
  | described words => words

/-- The most octets a name may take. -/
abbrev longestUsername : Nat := 40

def isNameChar (c : Char) : Bool :=
  c.isAlphanum || c = '-' || c = '_' || c = '.'

def isEmail (cs : List Char) : Bool :=
  cs.contains '@' && cs.head? != some '@' && cs.getLast? != some '@'

namespace Registration

def storedUsername (r : Registration) : String :=
  trim r.username

def storedEmail (r : Registration) : String :=
  trim r.email

/-- The name that is shown: the given one, or the name of the account where none is given. -/
def displayName (r : Registration) : String :=
  if trim r.name = "" then r.storedUsername else trim r.name

/-- The first reason to reject a registration, if there is one. -/
def check (r : Registration) : Except Rejection Unit :=
  let username := r.storedUsername
  let email := r.storedEmail
  if username = "" then .error .noUsername
  else if longestUsername < octetCount username.toList then .error .longUsername
  else if !username.toList.all isNameChar then .error (.badUsername username)
  else if !isEmail email.toList then .error (.badEmail email)
  else if r.password = "" then .error .noPassword
  else .ok ()

end Registration

end Gatehouse.Auth
