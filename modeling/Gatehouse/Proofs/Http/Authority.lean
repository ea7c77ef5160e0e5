import Mathlib.Data.Set.Defs
import Gatehouse.Http.App
import Gatehouse.Proofs.Auth.Writes
import Gatehouse.Proofs.Http.Routes
import Gatehouse.Proofs.Store.Tokens

/-! # What clients may change and see

A request to the application makes one operation of the store at most: a login, a registration of somebody
who is no administrator, or an activation that an administrator asks for. Nothing is assumed of the store, nor
of what the request holds. What follows for users is therefore true of every sequence of requests, however
malformed: nobody becomes an administrator, nobody is deleted, and nobody is verified but by an administrator.
-/

namespace Gatehouse.Store.Database

/-- The users who are administrators, deleted or not. -/
def administrators (db : Database) : Set UserId :=
  {id | ∃ u ∈ db.users.rows, u.id = id.number ∧ u.isAdmin ≠ 0}

/-- The users who have been deleted. -/
def deletedUsers (db : Database) : Set UserId :=
  {id | ∃ u ∈ db.users.rows, u.id = id.number ∧ u.isDeleted = true}

end Gatehouse.Store.Database

namespace Gatehouse.Http.App

open Gatehouse.Auth Gatehouse.Store Gatehouse.Text Gatehouse.Time

variable (app : App) (moment : Moment) (request : Request)

/-! ## Who asks -/

/-- The token that a request presents: the cookie if there is one that is not empty, else the bearer. -/
def Presents (token : String) : Prop :=
  request.headers.cookie app.session.cookieName = some token ∨
    request.headers.cookie app.session.cookieName = none ∧ request.headers.bearerToken = some token

/-- The token that a request presents leads to an administrator who is not deleted. -/
def AskedByAdmin (db : Database) : Prop :=
  ∃ token r, app.Presents request token ∧ db.Bears moment.now token r ∧ r.isAdmin ≠ 0

variable {app moment request} {db : Database}

theorem presents_iff {token : String} : app.Presents request token ↔
    request.headers.sessionToken app.session.cookieName = some token := by
  rw [Presents, Headers.sessionToken]
  cases request.headers.cookie app.session.cookieName with
  | none => simp
  | some value => simp

/-- Who asks is the one to whom the token of the request leads. -/
theorem asker_eq_ok_iff {user : User} : app.asker moment request db = .ok user ↔
    ∃ token, app.Presents request token ∧ Database.userBySession moment.now token db = .ok (some user) := by
  simp only [presents_iff]
  rw [asker]
  cases request.headers.sessionToken app.session.cookieName with
  | none =>
      constructor
      · intro asked
        cases asked
      · rintro ⟨token, presents, _⟩
        cases presents
  | some token =>
      simp only [Service.authenticate, Inquiry.ofQuery]
      constructor
      · intro asked
        cases found : Database.userBySession moment.now token db with
        | error e =>
            rw [found] at asked
            cases asked
        | ok user? =>
            rw [found] at asked
            cases user? with
            | none => cases asked
            | some other =>
                cases asked
                exact ⟨token, rfl, found⟩
      · rintro ⟨_, presents, found⟩
        cases presents
        rw [found]
        rfl

theorem bears_of_asker {user : User} (asked : app.asker moment request db = .ok user) :
    ∃ token r, app.Presents request token ∧ db.Bears moment.now token r ∧ r.ReadAs user := by
  obtain ⟨token, presents, found⟩ := asker_eq_ok_iff.mp asked
  obtain ⟨r, bears, read⟩ := Database.bears_of_userBySession found
  exact ⟨token, r, presents, bears, UserRow.readAs_of_toUser read⟩

theorem askedByAdmin_of_askingAdmin {user : User} (asked : app.askingAdmin moment request db = .ok user) :
    app.AskedByAdmin moment request db := by
  rw [askingAdmin] at asked
  obtain ⟨asker, hasker, asked⟩ := exists_of_bind_eq_ok asked
  obtain ⟨token, r, presents, bears, read⟩ := bears_of_asker hasker
  refine ⟨token, r, presents, bears, ?_⟩
  intro zero
  have noAdmin : asker.isAdmin = false := by
    rw [read.isAdmin, zero]
    rfl
  rw [noAdmin] at asked
  cases asked

/-! ## What a request writes -/

variable (app moment request)

/-- The operation that a request makes, if it makes one. -/
inductive Writes (db : Database) : Operation → Prop
  | login (id : UserId) (clientIp : String) (data : NewSession) :
      Writes db (.commitLogin moment.noted id clientIp data)
  | register (data : NewUser) (path : String) (noAdmin : data.isAdmin = false) :
      Writes db (.commitRegistration moment.now data path)
  | activate (segment : List Char) (n : Int) (posted : request.method = "POST")
      (routed : Route.ofPath? app.withHealth request.path = some (.activate segment))
      (number : Route.userNumber? segment = some n) (asked : app.AskedByAdmin moment request db) :
      Writes db (.activate moment.noted ⟨n⟩)

theorem login_store (db : Database) : (app.login moment request db).2 = db ∨
    ∃ o, app.Writes moment request db o ∧ (app.login moment request db).2 = o.after db := by
  rw [login]
  cases bodyAs request LoginRequest.reader with
  | error r => exact Or.inl rfl
  | ok data =>
      simp only
      split
      · exact Or.inl rfl
      -- refused or not, the store is what the service has left
      all_goals
        rename_i signedIn
        rcases app.service.signIn_store signedIn with same | ⟨id, session, made⟩
        · exact Or.inl same
        · exact Or.inr ⟨_, .login id (request.headers.clientIp request.peer) session, made⟩

theorem register_store (db : Database) : (app.register moment request db).2 = db ∨
    ∃ o, app.Writes moment request db o ∧ (app.register moment request db).2 = o.after db := by
  rw [register]
  cases bodyAs request Registration.reader with
  | error r => exact Or.inl rfl
  | ok data =>
      have left := app.service.register_store moment.now moment.salt data
        (request.headers.clientIp request.peer) db
      simp only
      split
      all_goals
        rename_i registered
        rw [registered] at left
        rcases left with same | made
        · exact Or.inl same
        · exact Or.inr ⟨_, .register (app.service.newUser moment.salt data
            (request.headers.clientIp request.peer)) data.storedUsername rfl, made⟩

theorem activate_store {segment : List Char} (posted : request.method = "POST")
    (routed : Route.ofPath? app.withHealth request.path = some (.activate segment)) (db : Database) :
    (app.activate moment request segment db).2 = db ∨
      ∃ o, app.Writes moment request db o ∧ (app.activate moment request segment db).2 = o.after db := by
  rw [activate]
  cases number : Route.userNumber? segment with
  | none => exact Or.inl rfl
  | some n =>
      cases asked : app.askingAdmin moment request db with
      | error r => exact Or.inl rfl
      | ok user =>
          have left := Service.activate_store moment.noted ⟨n⟩ db
          simp only
          split
          all_goals
            rename_i activated
            rw [activated] at left
            rcases left with same | made
            · exact Or.inl same
            · exact Or.inr ⟨_, .activate segment n posted routed number
                (askedByAdmin_of_askingAdmin asked), made⟩

/-- Whatever is asked, one operation is made or none. -/
theorem handle_store (db : Database) : (app.handle moment request db).2 = db ∨
    ∃ o, app.Writes moment request db o ∧ (app.handle moment request db).2 = o.after db := by
  rw [handle]
  by_cases question : request.method = "OPTIONS"
  · refine Or.inl ?_
    simp only [if_pos question]
  · simp only [if_neg question]
    cases routed : Route.ofPath? app.withHealth request.path with
    | none => exact Or.inl rfl
    | some route =>
        by_cases taken : route.takes request.method = true
        · simp only [if_pos taken]
          cases route with
          | login => exact app.login_store moment request db
          | register => exact app.register_store moment request db
          | activate segment =>
              have posted : request.method = "POST" := of_decide_eq_true taken
              exact app.activate_store moment request posted routed db
          | me => exact Or.inl rfl
          | users => exact Or.inl rfl
          | admins => exact Or.inl rfl
          | health => exact Or.inl rfl
        · refine Or.inl ?_
          simp only [if_neg taken]

/-! ## Users after a request -/

/-- A request is for the activation of the user of a number, and an administrator makes it. -/
def Activates (db : Database) (id : Int) : Prop :=
  request.method = "POST" ∧
    (∃ segment, '/' ∉ segment ∧ Route.userNumber? segment = some id ∧
      request.path = "/v1/users/".toList ++ segment ++ "/activate".toList) ∧
    app.AskedByAdmin moment request db

/-- What a request may make of the row of a user. -/
structure Lets (db : Database) (u u' : UserRow) : Prop extends u.Becomes u' where
  deletion : u'.deletedAt = u.deletedAt
  activation : u'.verifiedAt = u.verifiedAt ∨ app.Activates moment request db u.id

/-- A user who is no administrator and has not been deleted. -/
def IsPlain (u : UserRow) : Prop :=
  u.isAdmin = 0 ∧ u.deletedAt = none

variable {app moment request}

theorem Writes.lets {o : Operation} (writes : app.Writes moment request db o) {u u' : UserRow}
    (turned : o.Turns u u') : app.Lets moment request db u u' where
  toBecomes := turned.becomes
  deletion := by
    rcases turned.deletedAt with same | ⟨now, rfl⟩
    · exact same
    · -- no request deletes
      cases writes
  activation := by
    rcases turned.verifiedAt with same | ⟨now, rfl⟩
    · exact Or.inl same
    · cases writes with
      | activate segment n posted routed number asked =>
          obtain ⟨path, noSlash⟩ := Route.path_of_activate routed
          exact Or.inr ⟨posted, ⟨segment, noSlash, number, path⟩, asked⟩

/-- Whatever a body holds, nobody registers as an administrator. -/
theorem Writes.isPlain {o : Operation} (writes : app.Writes moment request db o) {u : UserRow}
    (added : o.Adds u) : IsPlain u := by
  cases added with
  | created now data k same =>
      -- no request creates a user without a registration
      cases writes
  | registered now data path k same =>
      cases writes with
      | register data path noAdmin =>
          have columns := congrArg (fun u => (u.isAdmin, u.deletedAt)) same
          obtain ⟨isAdmin, deletedAt⟩ := Prod.mk.inj columns
          rw [NewUser.toRow, noAdmin] at isAdmin
          exact ⟨isAdmin, deletedAt⟩

theorem handle_users_grow (app : App) (moment : Moment) (request : Request) (db : Database) :
    db.users.Grows (app.Lets moment request db) IsPlain (app.handle moment request db).2.users := by
  rcases app.handle_store moment request db with same | ⟨o, writes, made⟩
  · rw [same]
    exact Table.grows_refl (fun u => ⟨UserRow.Becomes.refl u, rfl, Or.inl rfl⟩) db.users
  · rw [made]
    exact (o.users_grow db).imp (fun _ _ turned => writes.lets turned) fun _ added => writes.isPlain added

/-- The store after some requests, each at its own moment. -/
def serve (app : App) (db : Database) (requests : List (Moment × Request)) : Database :=
  requests.foldl (fun db asked => (app.handle asked.1 asked.2 db).2) db

/-- Whatever is asked, users stay what they are, none is deleted, and whoever is new is plain. -/
theorem serve_users_grow (app : App) (db : Database) (requests : List (Moment × Request)) :
    db.users.Grows (fun u u' => u.Becomes u' ∧ u'.deletedAt = u.deletedAt) IsPlain
      (app.serve db requests).users := by
  induction requests generalizing db with
  | nil => exact Table.grows_refl (fun u => ⟨UserRow.Becomes.refl u, rfl⟩) db.users
  | cons asked requests ih =>
      apply (app.handle_users_grow asked.1 asked.2 db).comp (ih (app.handle asked.1 asked.2 db).2)
      · intro u u' u'' lets later
        exact ⟨lets.toBecomes.trans later.1, later.2.trans lets.deletion⟩
      · intro u u' plain later
        exact ⟨later.1.isAdmin.trans plain.1, later.2.trans plain.2⟩
      · intro u plain
        exact plain

theorem serve_administrators (app : App) (db : Database) (requests : List (Moment × Request)) :
    (app.serve db requests).administrators = db.administrators := by
  ext id
  apply (app.serve_users_grow db requests).exists_iff
  · intro u u' stays
    rw [stays.1.id, stays.1.isAdmin]
  · intro u plain admin
    exact admin.2 plain.1

theorem serve_deletedUsers (app : App) (db : Database) (requests : List (Moment × Request)) :
    (app.serve db requests).deletedUsers = db.deletedUsers := by
  ext id
  apply (app.serve_users_grow db requests).exists_iff
  · intro u u' stays
    rw [stays.1.id, UserRow.isDeleted, stays.2, UserRow.isDeleted]
  · intro u plain gone
    rw [UserRow.isDeleted, plain.2] at gone
    cases gone.2

/-! ## The list of administrators -/

theorem statusOf_ne (e : Auth.Error) : statusOf e ≠ 200 := by
  cases e <;> simp [statusOf]

/-- Who may not see the list is told so, with a status of its own and without any list. -/
theorem refusal_of_askingAdmin {r : Response} (refused : app.askingAdmin moment request db = .error r) :
    ∃ status reason, r = .refusal status reason ∧ status ≠ 200 := by
  rw [askingAdmin, asker] at refused
  cases ht : request.headers.sessionToken app.session.cookieName with
  | none =>
      rw [ht] at refused
      cases refused
      exact ⟨401, _, rfl, by decide⟩
  | some token =>
      rw [ht] at refused
      simp only at refused
      cases ha : Service.authenticate moment.now token db with
      | error e =>
          rw [ha] at refused
          cases refused
          exact ⟨statusOf e, _, rfl, statusOf_ne e⟩
      | ok user =>
          rw [ha] at refused
          cases admin : user.isAdmin with
          | true =>
              simp only [ok_mapError, ok_bind, admin] at refused
              cases refused
          | false =>
              simp only [ok_mapError, ok_bind, admin] at refused
              cases refused
              exact ⟨403, _, rfl, by decide⟩

/-- Only an administrator is shown the list. -/
theorem askedByAdmin_of_shown (shown : (settle (app.admins moment request db)).status = 200 ∨
    ∃ items, (settle (app.admins moment request db)).body = .json (.arr items)) :
    app.AskedByAdmin moment request db := by
  cases asked : app.askingAdmin moment request db with
  | ok user => exact askedByAdmin_of_askingAdmin asked
  | error r =>
      obtain ⟨status, reason, rfl, unlike⟩ := refusal_of_askingAdmin asked
      have refused : settle (app.admins moment request db) = .refusal status reason := by
        rw [admins, asked]
        rfl
      rw [refused] at shown
      rcases shown with status_eq | ⟨items, body⟩
      · exact absurd status_eq unlike
      · cases body

/-- Without a token nobody is let in. -/
theorem settle_admins_of_stranger (stranger : ∀ token, ¬ app.Presents request token) :
    (settle (app.admins moment request db)).status = 401 := by
  rw [admins, askingAdmin, asker]
  cases presented : request.headers.sessionToken app.session.cookieName with
  | none => rfl
  | some token => exact absurd (presents_iff.mpr presented) (stranger token)

section Presented

variable {token : String} (presents : app.Presents request token)
include presents

/-- Where the token leads to nobody, the answer has the status of the cause. -/
theorem settle_admins_of_error {e : Auth.Error} (failed : Service.authenticate moment.now token db = .error e) :
    (settle (app.admins moment request db)).status = statusOf e := by
  rw [admins, askingAdmin, asker, presents_iff.mp presents]
  simp only [failed]
  rfl

theorem settle_admins_of_storeError {e : Store.Error}
    (failed : Database.userBySession moment.now token db = .error e) :
    (settle (app.admins moment request db)).status = 500 := by
  have refused : Service.authenticate moment.now token db = .error (.store e) := by
    simp only [Service.authenticate, Inquiry.ofQuery, failed]
    rfl
  exact settle_admins_of_error presents refused

theorem settle_admins_of_nobody (looksUp : db.LooksUp) (nobody : ∀ r, ¬ db.Bears moment.now token r) :
    (settle (app.admins moment request db)).status = 401 := by
  have unknown : Database.userBySession moment.now token db = .ok none := by
    rw [looksUp.userBySession, Database.bearer?_eq_none nobody]
    rfl
  exact settle_admins_of_error presents (Service.authenticate_of_none unknown)

/-- The row is read before it is asked whether the user is an administrator. -/
theorem settle_admins_of_illegible (looksUp : db.LooksUp) {r : UserRow}
    (bearer : db.bearer? moment.now token = some r) (illegible : ¬ r.Legible) :
    (settle (app.admins moment request db)).status = 500 := by
  cases read : r.toUser with
  | ok user => exact absurd (UserRow.legible_of_toUser read) illegible
  | error e =>
      have failed : Database.userBySession moment.now token db = .error e := by
        rw [looksUp.userBySession, bearer, Option.mapM_some, read]
        rfl
      exact settle_admins_of_storeError presents failed

theorem settle_admins_of_noAdmin (looksUp : db.LooksUp) {r : UserRow}
    (bearer : db.bearer? moment.now token = some r) (legible : r.Legible) (noAdmin : r.isAdmin = 0) :
    (settle (app.admins moment request db)).status = 403 := by
  obtain ⟨user, read⟩ := legible.toUser
  have found : Database.userBySession moment.now token db = .ok (some user) := by
    rw [looksUp.userBySession, bearer, Option.mapM_some, read]
    rfl
  have isAdmin : user.isAdmin = false := by
    rw [(UserRow.readAs_of_toUser read).isAdmin, noAdmin]
    rfl
  rw [admins, askingAdmin, asker_eq_ok_iff.mpr ⟨token, presents, found⟩]
  simp only [ok_bind, isAdmin]
  rfl

end Presented

theorem handle_admins (get : request.method = "GET") (path : request.path = "/v1/admins".toList) :
    (app.handle moment request db).1 =
      some { settle (app.admins moment request db) with access := app.cors.onAnswer request.headers } := by
  have routed : Route.ofPath? app.withHealth request.path = some .admins := by
    rw [path, Route.ofPath?_admins]
  rw [handle]
  simp only [get, routed]
  rfl

/-! ## Authority -/

/--
However many requests are served, the administrators and the deleted users stay the same. A request
verifies a user only if it is for the activation of that user and an administrator makes it, and only an
administrator is shown the list of administrators. Who presents no token is answered 401; so is who presents
one that nobody bears, and whose row can be read and says no administrator is answered 403. Before either is
known the token has to be looked up and the row to be read: where that fails, the answer is 500.
-/
theorem authority (app : App) (db : Database) :
    (∀ requests,
      (app.serve db requests).administrators = db.administrators ∧
      (app.serve db requests).deletedUsers = db.deletedUsers ∧
      ∀ (i : Nat) u, db.users.rows[i]? = none → (app.serve db requests).users.rows[i]? = some u →
        u.isAdmin = 0) ∧
    (∀ moment request (i : Nat) u, db.users.rows[i]? = some u →
      ∃ u', (app.handle moment request db).2.users.rows[i]? = some u' ∧ u'.id = u.id ∧
        (u'.verifiedAt ≠ u.verifiedAt → app.Activates moment request db u.id)) ∧
    ∀ moment request, request.method = "GET" → request.path = "/v1/admins".toList →
      ∃ answer, (app.handle moment request db).1 = some answer ∧
        (answer.status = 200 ∨ (∃ items, answer.body = .json (.arr items)) →
          app.AskedByAdmin moment request db) ∧
        ((∀ token, ¬ app.Presents request token) → answer.status = 401) ∧
        ∀ token, app.Presents request token →
          (¬ db.LooksUp → answer.status = 500) ∧
          (db.LooksUp → (∀ r, ¬ db.Bears moment.now token r) → answer.status = 401) ∧
          ∀ r, db.LooksUp → db.bearer? moment.now token = some r →
            (¬ r.Legible → answer.status = 500) ∧
            (r.Legible → r.isAdmin = 0 → answer.status = 403) := by
  refine ⟨?_, ?_, ?_⟩
  · intro requests
    refine ⟨app.serve_administrators db requests, app.serve_deletedUsers db requests, ?_⟩
    intro i u absent stored
    exact ((app.serve_users_grow db requests).added i u absent stored).1
  · intro moment request i u stored
    obtain ⟨u', stored', lets⟩ := (app.handle_users_grow moment request db).kept i u stored
    refine ⟨u', stored', lets.id, ?_⟩
    intro verified
    exact lets.activation.resolve_left verified
  · intro moment request get path
    refine ⟨_, handle_admins get path, askedByAdmin_of_shown, settle_admins_of_stranger, ?_⟩
    intro token presents
    refine ⟨?_, settle_admins_of_nobody presents, ?_⟩
    · intro shut
      obtain ⟨e, failed⟩ := Database.userBySession_of_not_looksUp shut moment.now token
      exact settle_admins_of_storeError presents failed
    · intro r looksUp bearer
      exact ⟨settle_admins_of_illegible presents looksUp bearer, settle_admins_of_noAdmin presents looksUp bearer⟩

/-- An application whose service never looks at a password. -/
def lobby : App :=
  ⟨⟨.standard, fun _ => [], usualBinds⟩, {}, .everyone, false⟩

/-- Ruth, an administrator, and Ada, who is to be activated yet, each with a session. -/
def staffed : List Operation :=
  [.createUser .epoch { Database.ada with email := "ruth@example.org", username := "ruth", isAdmin := true },
    .commitRegistration .epoch Database.ada "ada",
    .createSession ⟨⟨1⟩, "ruths", "::1", .epoch, ⟨2592000, 0⟩⟩,
    .createSession ⟨⟨2⟩, "adas", "::1", .epoch, ⟨2592000, 0⟩⟩]

/-- A request with no query and no body. -/
def plainly (method path : String) (headers : Headers) : Request :=
  ⟨method, path.toList, [], headers, [], none⟩

def adaAsks : Request :=
  plainly "GET" "/v1/admins" [.named "Authorization" (Text.utf8 "Bearer adas")]

theorem adaAsks_presents : lobby.Presents adaAsks "adas" :=
  presents_iff.mpr (by decide +kernel)

/-- Ruth's cookie activates Ada, whatever else is presented; the list is kept from Ada and from strangers. -/
theorem authority_staffed :
    let db := (Database.empty {}).run staffed
    let start : Moment := ⟨.epoch, .epoch, "", [], 0⟩
    let activation := plainly "POST" "/v1/users/2/activate"
      [.named "Cookie" (Text.utf8 "auth-user-token=ruths"), .named "Authorization" (Text.utf8 "Bearer adas")]
    (∃ u u', db.users.rows[1]? = some u ∧ (lobby.handle start activation db).2.users.rows[1]? = some u' ∧
      u'.verifiedAt ≠ u.verifiedAt ∧ lobby.Activates start activation db u.id) ∧
    (∃ answer, (lobby.handle start (plainly "GET" "/v1/admins" []) db).1 = some answer ∧ answer.status = 401) ∧
    (∃ answer, (lobby.handle start adaAsks db).1 = some answer ∧ answer.status = 403) ∧
    ∃ answer, (lobby.handle start adaAsks db.close).1 = some answer ∧ answer.status = 500 := by
  intro db start activation
  have legible : db.Legible := (Database.legible_empty {}).run (by decide +kernel)
  have looksUp : db.LooksUp := ((Database.Reachable.empty {}).run staffed).sound.ready.looksUp
  obtain ⟨_, changes, shows⟩ := authority lobby db
  refine ⟨?_, ?_, ?_, ?_⟩
  · have first : ∃ u ∈ db.users.rows[1]?, u.verifiedAt = none := by decide +kernel
    have second : ∃ u ∈ (lobby.handle start activation db).2.users.rows[1]?, u.verifiedAt ≠ none := by
      decide +kernel
    obtain ⟨u, stored, unverified⟩ := first
    obtain ⟨u', stored', verified⟩ := second
    obtain ⟨u'', same, _, allowed⟩ := changes start activation 1 u stored
    have changed : u'.verifiedAt ≠ u.verifiedAt := by
      rw [unverified]
      exact verified
    cases stored'.symm.trans same
    exact ⟨u, u', stored, stored', changed, allowed changed⟩
  · obtain ⟨answer, answered, _, stranger, _⟩ := shows start (plainly "GET" "/v1/admins" []) rfl rfl
    refine ⟨answer, answered, stranger ?_⟩
    intro token presents
    cases presents_iff.mp presents
  · obtain ⟨answer, answered, _, _, presented⟩ := shows start adaAsks rfl rfl
    obtain ⟨_, _, known⟩ := presented "adas" adaAsks_presents
    obtain ⟨u, bearer, noAdmin⟩ : ∃ u ∈ db.bearer? start.now "adas", u.isAdmin = 0 := by decide +kernel
    have readable : u.Legible := legible u (Database.bears_of_bearer? bearer).mem
    exact ⟨answer, answered, (known u looksUp bearer).2 readable noAdmin⟩
  · obtain ⟨_, _, shut⟩ := authority lobby db.close
    obtain ⟨answer, answered, _, _, presented⟩ := shut start adaAsks rfl rfl
    obtain ⟨fails, _⟩ := presented "adas" adaAsks_presents
    refine ⟨answer, answered, fails ?_⟩
    intro looksUp
    cases looksUp.opened

/-- The instant of Ada's registration has been overwritten with a word. -/
def blurred : Database :=
  Change.after (Database.editUser 2 "created_at" (.text "gestern")) ((Database.empty {}).run staffed)

/-- Her token is still that of a user who is no administrator, and yet she is not told so. -/
theorem colleague_blurred :
    let start : Moment := ⟨.epoch, .epoch, "", [], 0⟩
    lobby.Presents adaAsks "adas" ∧
    (∃ u, blurred.Bears start.now "adas" u ∧ u.isAdmin = 0) ∧
    ∃ answer, (lobby.handle start adaAsks blurred).1 = some answer ∧ answer.status = 500 ∧ answer.status ≠ 403 := by
  intro start
  have status : (lobby.handle start adaAsks blurred).1.map Response.status = some 500 := by decide +kernel
  obtain ⟨answer, answered, failed⟩ := Option.map_eq_some_iff.mp status
  obtain ⟨u, bearer, noAdmin⟩ : ∃ u ∈ blurred.bearer? start.now "adas", u.isAdmin = 0 := by decide +kernel
  refine ⟨adaAsks_presents, ⟨u, Database.bears_of_bearer? bearer, noAdmin⟩, answer, answered, failed, ?_⟩
  rw [failed]
  decide

end Gatehouse.Http.App
