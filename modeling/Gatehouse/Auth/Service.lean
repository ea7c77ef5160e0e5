import Gatehouse.Auth.Error
import Gatehouse.Auth.Login
import Gatehouse.Auth.SessionPolicy
import Gatehouse.Store.Transactions

/-!
# The service

Login, registration, activation and the check of a session. A login and a registration are made in two
steps: the first looks at the store and decides, the second makes one change. Between the two the store
may change, and the second step decides again.
-/

namespace Gatehouse.Auth

open Gatehouse.Store Gatehouse.Time

structure Service where
  policy : SessionPolicy
  derive : Password.Derivation
  /-- How many values the engine of the store binds in one statement. -/
  binds : Nat

abbrev Inquiry (α : Type) := Database → Except Error α

/-- Answers or refuses, and leaves a store. -/
abbrev Action (α : Type) := Database → Except Error α × Database

def Inquiry.ofQuery {α : Type} (query : Query α) : Inquiry α := fun db =>
  (query db).mapError Error.store

def Action.ofChange {α : Type} (change : Change α) (refuse : Store.Error → Error := Error.store) :
    Action α := fun db =>
  let (answer, db) := change.commit db
  (answer.mapError refuse, db)

namespace Service

variable (service : Service)

def userOf (identifier : Identifier) : Inquiry (Option User) :=
  Inquiry.ofQuery
    (match identifier with
    | .email address => Database.userByEmail address
    | .username name => Database.userByUsername name)

/-- First step of a login: the user is there, is verified, and has the password, in this order. -/
def credentials (request : LoginRequest) : Inquiry User := fun db => do
  let identifier := Identifier.ofString request.identifier
  match ← userOf identifier db with
  | none => throw (.unknown identifier.text)
  | some user =>
    if !user.isVerified then throw .notVerified
    match Password.verify service.derive request.password user.passwordHash with
    | .error fault => throw (.password fault)
    | .ok false => throw .wrongPassword
    | .ok true => return user

/-- Second step of a login: the session of a draft is stored, and the login is noted. -/
def openSession (noted : Instant) (user : User) (draft : Draft) (clientIp : String) :
    Action LoginAnswer := fun db =>
  let (answer, db) :=
    Action.ofChange
      (Database.commitLogin noted user.id clientIp (draft.toSession user.id clientIp)) Error.store db
  (answer.map fun result =>
    { token := result.session.token
      path := result.home.map (·.path)
      name := user.name
      email := user.email
      publicEmail := user.publicEmail }, db)

/--
Logs a user in with a token not used before. The clock is read for the session, and once more when the
login is noted. No answer comes where the expiry has no name.
-/
def signIn (now noted : Instant) (token : String) (request : LoginRequest) (clientIp : String)
    (db : Database) : Option (Except Error LoginAnswer × Database) :=
  match service.credentials request db with
  | .error e => some (.error e, db)
  | .ok user =>
    (Draft.issue? service.policy now token).map fun draft => openSession noted user draft clientIp db

/-- First step of a registration: it keeps the rules, and no user has the name or the address. -/
def permit (r : Registration) : Inquiry Unit := fun db => do
  r.check.mapError Error.rejected
  if ← Inquiry.ofQuery (Database.userExists r.storedUsername r.storedEmail) db then throw .taken

/-- What the store refuses of a registration; a conflict means that someone else was faster. -/
def registrationRefused (e : Store.Error) : Error :=
  if e.isConflict then .taken else .store e

/-- Second step of a registration: the user is stored together with the namespace of its name. -/
def enrol (now : Instant) (salt : List UInt8) (r : Registration) (clientIp : String) :
    Action UserWithNamespace :=
  Action.ofChange
    (Database.commitRegistration now
      { email := r.storedEmail
        username := r.storedUsername
        name := r.displayName
        passwordHash := Password.hash service.derive r.password salt
        publicEmail := r.publicEmail
        isAdmin := false
        registerIp := clientIp }
      r.storedUsername)
    registrationRefused

def register (now : Instant) (salt : List UInt8) (r : Registration) (clientIp : String) :
    Action UserWithNamespace := fun db =>
  match permit r db with
  | .error e => (.error e, db)
  | .ok () => service.enrol now salt r clientIp db

def findAccount (id : UserId) : Inquiry Unit := fun db => do
  if (← Inquiry.ofQuery (Database.userById id) db).isNone then throw (.unknown id.text)

/-- Second step of an activation: the user is verified, unless that has been done. -/
def verifyAccount (now : Instant) (id : UserId) : Action Bool :=
  Action.ofChange (Database.activate now id) Error.store

def activate (now : Instant) (id : UserId) : Action Bool := fun db =>
  match findAccount id db with
  | .error e => (.error e, db)
  | .ok () => verifyAccount now id db

def authenticate (now : Instant) (token : String) : Inquiry User := fun db => do
  match ← Inquiry.ofQuery (Database.userBySession now token) db with
  | some user => return user
  | none => throw .noSession

def homeOf (user : User) : Inquiry (Option Namespace) :=
  Inquiry.ofQuery (Database.namespaceByOwner user.id.number .user)

def userPage (page per : Nat) : Inquiry (List User) :=
  Inquiry.ofQuery (Database.userPage page per)

def admins : Inquiry (List UserWithNamespace) :=
  Inquiry.ofQuery (Database.admins service.binds)

end Service

end Gatehouse.Auth
