import Gatehouse.Auth.Service
import Gatehouse.Health
import Gatehouse.Http.Cookie
import Gatehouse.Http.Cors
import Gatehouse.Http.MediaType
import Gatehouse.Http.Page
import Gatehouse.Http.Profile
import Gatehouse.Http.Route
import Gatehouse.Store.Maintenance

/-!
# The application

How each request is answered. Every answer is a function of the request, of what the moment supplies and
of the store; only a login, a registration and an activation leave another store.
-/

namespace Gatehouse.Http

open Gatehouse.Auth Gatehouse.Store Gatehouse.Time

structure App where
  service : Service
  session : Settings.SessionSection
  cors : Cors
  withHealth : Bool

/-- What the moment of a request supplies. -/
structure Moment where
  now : Instant
  /-- The clock when it is read again, for what is noted in the row of a user. -/
  noted : Instant
  /-- A token that was not used before. -/
  token : String
  /-- Random octets for the hash of a password. -/
  salt : List UInt8
  /-- How many seconds the application has been running. -/
  uptime : Nat
  deriving Repr, DecidableEq

namespace App

variable (app : App) (moment : Moment) (request : Request)

def asker (db : Database) : Except Response User :=
  match request.headers.sessionToken app.session.cookieName with
  | none => .error (.refusal 401 "Session-Token fehlt")
  | some token => (Service.authenticate moment.now token db).mapError .ofError

def askingAdmin (db : Database) : Except Response User := do
  let user ← app.asker moment request db
  if !user.isAdmin then throw (.refusal 403 "Nur fuer Administratoren")
  return user

abbrev greatestBody : Nat := 2 * 1024 * 1024

/-- What the body of a request holds; one that is too large is not read. -/
def bodyAs {α : Type} (read : Json.Reader α) : Except Response α :=
  if request.headers.bringJson then
    if greatestBody < request.body.length then .error (.text 413 "Payload Too Large")
    else match Json.readFront read request.body with
    | .ok a => .ok a
    | .error .mismatch => .error (.text 422 "Unprocessable Entity")
    | .error .malformed | .error .unfinished => .error (.text 400 "Bad Request")
  else
    .error (.text 415 "Unsupported Media Type")

/-- The answer to a login, with the cookie of the session if it can be sent. -/
def loginResponse (answer : LoginAnswer) : Response :=
  { Response.json 200 answer.toJson with
    cookies := (sessionCookie app.session answer.token app.service.policy.seconds).toList }

/-- Answers a login; without a nameable expiry there is no answer. -/
def login (db : Database) : Option Response × Database :=
  match bodyAs request LoginRequest.reader with
  | .error r => (some r, db)
  | .ok data =>
    let clientIp := request.headers.clientIp request.peer
    match app.service.signIn moment.now moment.noted moment.token data clientIp db with
    | none => (none, db)
    | some (.error e, db) => (some (.ofError e), db)
    | some (.ok answer, db) => (some (app.loginResponse answer), db)

def register (db : Database) : Response × Database :=
  match bodyAs request Registration.reader with
  | .error r => (r, db)
  | .ok data =>
    let clientIp := request.headers.clientIp request.peer
    match app.service.register moment.now moment.salt data clientIp db with
    | (.error e, db) => (.ofError e, db)
    | (.ok made, db) => (.json 201 (Profile.ofUser made.user made.path true).toJson, db)

def activate (segment : List Char) (db : Database) : Response × Database :=
  match Route.userNumber? segment with
  | none => (.text 400 "Bad Request", db)
  | some n =>
    match app.askingAdmin moment request db with
    | .error r => (r, db)
    | .ok _ =>
      match Service.activate moment.noted ⟨n⟩ db with
      | (.error e, db) => (.ofError e, db)
      | (.ok activated, db) =>
        (.json 200 (.obj [("id", .int n), ("activated", .bool activated)]), db)

def me : Database → Except Response Response := fun db => do
  let user ← app.asker moment request db
  let home ← (Service.homeOf user db).mapError .ofError
  return .json 200 (Profile.ofUser user (home.map (·.path)) true).toJson

def users : Database → Except Response Response := fun db => do
  let some wanted := Page.ofQuery? request.query | throw (.text 400 "Bad Request")
  let user ← app.asker moment request db
  let (page, per) := wanted.resolve
  let listed ← (Service.userPage page per db).mapError .ofError
  let profiles := listed.map fun u => Profile.ofUser u none (u.id = user.id || user.isAdmin)
  return .json 200
    (.obj [("page", .int page), ("per", .int per), ("users", .arr (profiles.map (·.toJson)))])

def admins : Database → Except Response Response := fun db => do
  let _ ← app.askingAdmin moment request db
  let listed ← (app.service.admins db).mapError .ofError
  return .json 200 (.arr (listed.map fun a => (Profile.ofUser a.user a.path true).toJson))

def health (moment : Moment) (db : Database) : Response :=
  let answers := db.ping
  .json (if answers then 200 else 503) (HealthReport.make answers moment.uptime).toJson

def settle : Except Response Response → Response
  | .ok r => r
  | .error r => r

def answer (route : Route) (db : Database) : Option Response × Database :=
  match route with
  | .login => app.login moment request db
  | .register =>
    let (r, db) := app.register moment request db
    (some r, db)
  | .activate segment =>
    let (r, db) := app.activate moment request segment db
    (some r, db)
  | .me => (some (settle (app.me moment request db)), db)
  | .users => (some (settle (app.users moment request db)), db)
  | .admins => (some (settle (app.admins moment request db)), db)
  | .health => (some (health moment db), db)

/-- To a question for the head of an answer the body is not sent. -/
def withoutBody (method : String) (r : Response) : Response :=
  if method = "HEAD" then { r with body := .empty } else r

/-- Answers a request; without an answer the request has been given up, and nothing was done. -/
def handle (db : Database) : Option Response × Database :=
  let route := Route.ofPath? app.withHealth request.path
  if request.method = "OPTIONS" then
    (some
      { Response.empty 200 with
        allow := route.map Route.allowed
        access := app.cors.onQuestion request.headers },
      db)
  else
    let (answered, db) :=
      match route with
      | none => (some (Response.empty 404), db)
      | some route =>
        if route.takes request.method then
          app.answer moment request route db
        else
          (some { Response.empty 405 with allow := some route.allowed }, db)
    let finish (r : Response) : Response :=
      { withoutBody request.method r with access := app.cors.onAnswer request.headers }
    (answered.map finish, db)

end App

end Gatehouse.Http
