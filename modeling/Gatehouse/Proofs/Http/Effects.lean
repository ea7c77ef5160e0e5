import Gatehouse.Proofs.Http.Authority
import Gatehouse.Store.Maintenance

/-! # What an answer says about the store

A store that has changed has been changed by a login, a registration or an activation, and the answer says that
it was done. Every refusal leaves the store as it was, wherever in the request it comes from, and so does every
request that only asks for something. Nothing is assumed of the store.
-/

namespace Gatehouse.Http

open Gatehouse.Auth Gatehouse.Store Gatehouse.Text Gatehouse.Time

/-- The answer to the activation of a user: whether it was done, or had been done before. -/
def Response.Activated (n : Int) (fresh : Bool) (r : Response) : Prop :=
  r.status = 200 ∧ r.body = .json (.obj [("id", .int n), ("activated", .bool fresh)])

theorem Response.Activated.unique {n : Int} {fresh fresh' : Bool} {r : Response} (h : r.Activated n fresh)
    (h' : r.Activated n fresh') : fresh = fresh' := by
  have bodies := h.2.symm.trans h'.2
  cases bodies
  rfl

theorem Response.Activated.status_ne {n : Int} {fresh : Bool} {r : Response} (h : r.Activated n fresh) {k : Nat}
    (unlike : 200 ≠ k) : r.status ≠ k := by
  rw [h.1]
  exact unlike

namespace App

variable {app : App} {moment : Moment} {request : Request} {db : Database}

/-! ## Requests that change something -/

theorem status_of_login_changes (changed : (app.login moment request db).2 ≠ db) :
    ∃ r, (app.login moment request db).1 = some r ∧ r.status = 200 := by
  revert changed
  rw [login]
  cases bodyAs request LoginRequest.reader with
  | error r => exact fun changed => absurd rfl changed
  | ok data =>
      simp only
      split
      · exact fun changed => absurd rfl changed
      · rename_i refused
        exact fun changed => absurd (Service.signIn_of_error refused) changed
      · exact fun _ => ⟨_, rfl, rfl⟩

theorem status_of_register_changes (changed : (app.register moment request db).2 ≠ db) :
    (app.register moment request db).1.status = 201 := by
  revert changed
  rw [register]
  cases bodyAs request Registration.reader with
  | error r => exact fun changed => absurd rfl changed
  | ok data =>
      simp only
      split
      · rename_i refused
        exact fun changed => absurd (Service.register_of_error refused) changed
      · exact fun _ => rfl

/-- Whom a token leads to is asked of a store that is open and has its users. -/
theorem answers_of_asker {user : User} (asked : app.asker moment request db = .ok user) :
    db.requireOpen = .ok () ∧ db.require .users = .ok () := by
  obtain ⟨token, _, found⟩ := asker_eq_ok_iff.mp asked
  rw [Database.userBySession] at found
  obtain ⟨_, opened, found⟩ := exists_of_bind_eq_ok found
  obtain ⟨_, there, _⟩ := exists_of_bind_eq_ok found
  exact ⟨opened, there⟩

theorem answers_of_askingAdmin {user : User} (asked : app.askingAdmin moment request db = .ok user) :
    db.requireOpen = .ok () ∧ db.require .users = .ok () := by
  rw [askingAdmin] at asked
  obtain ⟨asker, hasker, _⟩ := exists_of_bind_eq_ok asked
  exact answers_of_asker hasker

/-- What an administrator is answered who asks for an activation, and which store is left. -/
inductive Activation (now : Instant) (n : Int) (db : Database) : Response × Database → Prop
  | unknown (r : Response) (nobody : ∀ u ∈ db.users.rows, u.lives ⟨n⟩ = false) (status : r.status = 404) :
      Activation now n db (r, db)
  | unreadable (r : Response) (illegible : ∃ u ∈ db.users.rows, u.lives ⟨n⟩ = true ∧ ¬ u.Legible)
      (status : r.status = 500) : Activation now n db (r, db)
  | repeated (r : Response) (legible : ∃ u ∈ db.users.rows, u.lives ⟨n⟩ = true ∧ u.Legible)
      (settled : ∀ u ∈ db.users.rows, u.awaits ⟨n⟩ = false) (answer : r.Activated n false) :
      Activation now n db (r, db)
  | fresh (r : Response) (legible : ∃ u ∈ db.users.rows, u.lives ⟨n⟩ = true ∧ u.Legible)
      (awaits : ∃ u ∈ db.users.rows, u.awaits ⟨n⟩ = true) (answer : r.Activated n true) :
      Activation now n db (r, db.withVerified now ⟨n⟩)

theorem activation_of_askingAdmin {user : User} {segment : List Char} {n : Int}
    (asked : app.askingAdmin moment request db = .ok user) (number : Route.userNumber? segment = some n) :
    Activation moment.noted n db (app.activate moment request segment db) := by
  obtain ⟨opened, there⟩ := answers_of_askingAdmin asked
  rw [activate, number]
  simp only [asked]
  rcases Service.activate_cases opened there moment.noted ⟨n⟩ with
    ⟨nobody, answered⟩ | ⟨illegible, e, answered⟩ | ⟨legible, answered⟩
  · rw [answered]
    exact .unknown _ nobody rfl
  · rw [answered]
    exact .unreadable _ illegible rfl
  · rw [answered]
    cases awaits : db.users.any (UserRow.awaits ⟨n⟩) with
    | true => exact .fresh _ legible (Table.any_eq_true.mp awaits) ⟨rfl, rfl⟩
    | false =>
        rw [Service.withVerified_of_none_awaits awaits]
        exact .repeated _ legible (Table.any_eq_false.mp awaits) ⟨rfl, rfl⟩

theorem activated_of_changes {segment : List Char} (changed : (app.activate moment request segment db).2 ≠ db) :
    ∃ n, Route.userNumber? segment = some n ∧ (app.activate moment request segment db).1.Activated n true := by
  cases number : Route.userNumber? segment with
  | none =>
      rw [activate, number] at changed
      exact absurd rfl changed
  | some n =>
      cases asked : app.askingAdmin moment request db with
      | error r =>
          rw [activate, number] at changed
          simp only [asked] at changed
          exact absurd rfl changed
      | ok user =>
          have outcome := activation_of_askingAdmin asked number
          generalize app.activate moment request segment db = result at outcome changed
          cases outcome with
          | fresh r _ _ answer => exact ⟨n, rfl, answer⟩
          | _ => exact absurd rfl changed

/-! ## What is left of a request -/

/-- Only what is posted reaches a route that changes something. -/
theorem posted_of_changes (changed : (app.handle moment request db).2 ≠ db) : request.method = "POST" ∧
    ∃ route, Route.ofPath? app.withHealth request.path = some route ∧ route.isPosted = true := by
  rw [handle] at changed
  by_cases question : request.method = "OPTIONS"
  · simp only [if_pos question] at changed
    exact absurd rfl changed
  · simp only [if_neg question] at changed
    cases routed : Route.ofPath? app.withHealth request.path with
    | none =>
        rw [routed] at changed
        exact absurd rfl changed
    | some route =>
        rw [routed] at changed
        by_cases taken : route.takes request.method = true
        · simp only [if_pos taken] at changed
          cases hp : route.isPosted with
          | true =>
              rw [Route.takes, hp] at taken
              exact ⟨of_decide_eq_true taken, route, rfl, hp⟩
          | false =>
              -- what is only read leaves the store alone
              cases route with
              | login | register | activate segment => cases hp
              | me | users | admins | health => exact absurd rfl changed
        · simp only [if_neg taken] at changed
          exact absurd rfl changed

/-- A posted request is answered by its route, and the answer says besides who may read it. -/
theorem handle_posted {route : Route} (posted : request.method = "POST")
    (routed : Route.ofPath? app.withHealth request.path = some route) (changes : route.isPosted = true) :
    app.handle moment request db =
      ((app.answer moment request route db).1.map fun r => { r with access := app.cors.onAnswer request.headers },
        (app.answer moment request route db).2) := by
  have taken : route.takes "POST" = true := by
    rw [Route.takes, changes]
    rfl
  rw [handle]
  simp only [posted, routed, taken]
  rfl

theorem askingAdmin_of_presents {token : String} {user : User} (presents : app.Presents request token)
    (found : Database.userBySession moment.now token db = .ok (some user)) (admin : user.isAdmin = true) :
    app.askingAdmin moment request db = .ok user := by
  rw [askingAdmin, asker_eq_ok_iff.mpr ⟨token, presents, found⟩]
  simp only [ok_bind, admin]
  rfl

/-- Where the rows of a user can be read, the answer to its activation tells how the user stands. -/
theorem Activation.answer_iff {now : Instant} {n : Int} {result : Response × Database}
    (h : Activation now n db result) (legible : ∀ u ∈ db.users.rows, u.lives ⟨n⟩ = true → u.Legible) :
    (result.1.Activated n true ↔ ∃ u ∈ db.users.rows, u.awaits ⟨n⟩ = true) ∧
      (result.1.Activated n false ↔
        (∃ u ∈ db.users.rows, u.lives ⟨n⟩ = true) ∧ ∀ u ∈ db.users.rows, u.awaits ⟨n⟩ = false) ∧
      (result.1.status = 404 ↔ ∀ u ∈ db.users.rows, u.lives ⟨n⟩ = false) := by
  cases h with
  | unknown r nobody status =>
      have unlike : ∀ fresh, ¬ r.Activated n fresh := fun _ activated => activated.status_ne (by decide) status
      refine ⟨⟨fun h => absurd h (unlike true), ?_⟩, ⟨fun h => absurd h (unlike false), ?_⟩,
        fun _ => nobody, fun _ => status⟩
      · rintro ⟨u, hu, awaits⟩
        have lives := UserRow.lives_of_awaits awaits
        simp [nobody u hu] at lives
      · rintro ⟨⟨u, hu, lives⟩, _⟩
        simp [nobody u hu] at lives
  | unreadable r illegible status =>
      obtain ⟨u, hu, lives, unread⟩ := illegible
      exact absurd (legible u hu lives) unread
  | repeated r found settled answer =>
      obtain ⟨u, hu, lives, _⟩ := found
      refine ⟨⟨fun h => absurd (h.unique answer) (by decide), ?_⟩, ⟨fun _ => ⟨⟨u, hu, lives⟩, settled⟩,
        fun _ => answer⟩, fun status => absurd status (answer.status_ne (by decide)), ?_⟩
      · rintro ⟨u, hu, awaits⟩
        simp [settled u hu] at awaits
      · intro nobody
        simp [nobody u hu] at lives
  | fresh r found awaits answer =>
      obtain ⟨u, hu, lives, _⟩ := found
      refine ⟨⟨fun _ => awaits, fun _ => answer⟩, ⟨fun h => absurd (h.unique answer) (by decide), ?_⟩,
        fun status => absurd status (answer.status_ne (by decide)), ?_⟩
      · rintro ⟨_, settled⟩
        obtain ⟨u, hu, awaits⟩ := awaits
        simp [settled u hu] at awaits
      · intro nobody
        simp [nobody u hu] at lives

theorem Activation.store {now : Instant} {n : Int} {result : Response × Database}
    (h : Activation now n db result) (activated : result.1.Activated n true) :
    result.2 = db.withVerified now ⟨n⟩ := by
  cases h with
  | unknown r nobody status => exact absurd status (activated.status_ne (by decide))
  | unreadable r illegible status => exact absurd status (activated.status_ne (by decide))
  | repeated r legible settled answer => cases activated.unique answer
  | fresh r legible awaits answer => rfl

theorem Activation.unread {now : Instant} {n : Int} {result : Response × Database}
    (h : Activation now n db result) (there : ∃ u ∈ db.users.rows, u.lives ⟨n⟩ = true)
    (illegible : ∀ u ∈ db.users.rows, u.lives ⟨n⟩ = true → ¬ u.Legible) :
    result.1.status = 500 ∧ result.2 = db := by
  cases h with
  | unknown r nobody status =>
      obtain ⟨u, hu, lives⟩ := there
      simp [nobody u hu] at lives
  | unreadable r _ status => exact ⟨status, rfl⟩
  | repeated r legible _ _ =>
      obtain ⟨u, hu, lives, read⟩ := legible
      exact absurd read (illegible u hu lives)
  | fresh r legible _ _ =>
      obtain ⟨u, hu, lives, read⟩ := legible
      exact absurd read (illegible u hu lives)

/-! ## Effects -/

/-- The answer to a request says that it has done what it was for. -/
inductive Reports (request : Request) (answer : Response) : Prop
  | login (path : request.path = "/v1/login".toList) (status : answer.status = 200)
  | register (path : request.path = "/v1/register".toList) (status : answer.status = 201)
  | activation (segment : List Char) (n : Int) (noSlash : '/' ∉ segment)
      (path : request.path = "/v1/users/".toList ++ segment ++ "/activate".toList)
      (number : Route.userNumber? segment = some n) (activated : answer.Activated n true)

theorem Reports.status_lt {answer : Response} (h : Reports request answer) : answer.status < 400 := by
  cases h with
  | login _ status => omega
  | register _ status => omega
  | activation _ _ _ _ _ activated =>
      have status := activated.1
      omega

theorem reports_of_changes (changed : (app.handle moment request db).2 ≠ db) : request.method = "POST" ∧
    ∃ answer, (app.handle moment request db).1 = some answer ∧ Reports request answer := by
  obtain ⟨posted, route, routed, changes⟩ := posted_of_changes changed
  have written := Route.path_of_ofPath? routed
  refine ⟨posted, ?_⟩
  rw [handle_posted posted routed changes] at changed ⊢
  cases route with
  | login =>
      obtain ⟨r, answered, status⟩ := status_of_login_changes changed
      exact ⟨_, congrArg (Option.map _) answered, .login written status⟩
  | register => exact ⟨_, rfl, .register written (status_of_register_changes changed)⟩
  | activate segment =>
      obtain ⟨n, number, activated⟩ := activated_of_changes changed
      obtain ⟨_, noSlash⟩ := Route.path_of_activate routed
      exact ⟨_, rfl, .activation segment n noSlash written number activated⟩
  | _ => cases changes

/--
A request that changes the store is a login, a registration or an activation, and its answer says that it was
done. Refusals and questions change nothing. An administrator who asks for the activation of a user whose row
can be read is told whether the user was there and had been verified before, and only the note of the
verification is new; where the row cannot be read the activation fails and changes nothing.
-/
theorem effects (app : App) (moment : Moment) (request : Request) (db : Database) :
    let outcome := app.handle moment request db
    (outcome.2 ≠ db →
      request.method = "POST" ∧ ∃ answer, outcome.1 = some answer ∧ Reports request answer) ∧
    (∀ answer, outcome.1 = some answer → 400 ≤ answer.status → outcome.2 = db) ∧
    (request.method = "GET" ∨ request.method = "HEAD" → outcome.2 = db) ∧
    ∀ segment n token user, request.method = "POST" → '/' ∉ segment →
      request.path = "/v1/users/".toList ++ segment ++ "/activate".toList →
      Route.userNumber? segment = some n → app.Presents request token →
      Database.userBySession moment.now token db = .ok (some user) → user.isAdmin = true →
      ∃ answer, outcome.1 = some answer ∧
        ((∀ u ∈ db.users.rows, u.lives ⟨n⟩ = true → u.Legible) →
          (answer.Activated n true ↔ ∃ u ∈ db.users.rows, u.awaits ⟨n⟩ = true) ∧
          (answer.Activated n false ↔
            (∃ u ∈ db.users.rows, u.lives ⟨n⟩ = true) ∧ ∀ u ∈ db.users.rows, u.awaits ⟨n⟩ = false) ∧
          (answer.status = 404 ↔ ∀ u ∈ db.users.rows, u.lives ⟨n⟩ = false)) ∧
        (answer.Activated n true → outcome.2 = db.withVerified moment.noted ⟨n⟩) ∧
        ((∃ u ∈ db.users.rows, u.lives ⟨n⟩ = true) →
          (∀ u ∈ db.users.rows, u.lives ⟨n⟩ = true → ¬ u.Legible) →
          answer.status = 500 ∧ outcome.2 = db) := by
  intro outcome
  refine ⟨reports_of_changes, ?_, ?_, ?_⟩
  · intro answer answered refused
    apply Classical.byContradiction
    intro changed
    obtain ⟨_, other, answered', reports⟩ := reports_of_changes changed
    cases answered.symm.trans answered'
    have status := reports.status_lt
    omega
  · intro read
    apply Classical.byContradiction
    intro changed
    have posted := (reports_of_changes changed).1
    rcases read with get | head
    · rw [get] at posted
      exact absurd posted (by decide)
    · rw [head] at posted
      exact absurd posted (by decide)
  · intro segment n token user posted noSlash path number presents found admin
    have routed : Route.ofPath? app.withHealth request.path = some (.activate segment) := by
      rw [path, Route.ofPath?_activate noSlash]
    have answered : outcome = _ := handle_posted posted routed rfl
    have activation := activation_of_askingAdmin (askingAdmin_of_presents presents found admin) number
    rw [answered]
    exact ⟨_, rfl, activation.answer_iff, activation.store, activation.unread⟩

def activatesAda : Request :=
  plainly "POST" "/v1/users/2/activate" [.named "Cookie" (Text.utf8 "auth-user-token=ruths")]

theorem activatesAda_presents : lobby.Presents activatesAda "ruths" :=
  presents_iff.mpr (by decide +kernel)

/-- A token leads to an administrator where the query that can be evaluated says so. -/
theorem exists_admin_of_any {now : Instant} {token : String}
    (h : ∃ found ∈ (Database.userBySession now token db).toOption, found.any User.isAdmin = true) :
    ∃ user, Database.userBySession now token db = .ok (some user) ∧ user.isAdmin = true := by
  obtain ⟨found, answered, admin⟩ := h
  cases found with
  | none => cases admin
  | some user => exact ⟨user, eq_ok_of_toOption answered, admin⟩

/-- Ada is verified and nothing else happens; the second time nothing happens at all. Strangers are refused. -/
theorem effects_staffed :
    let db := (Database.empty {}).run staffed
    let db' := db.withVerified .epoch ⟨2⟩
    let start : Moment := ⟨.epoch, .epoch, "", [], 0⟩
    let strange := plainly "POST" "/v1/users/2/activate" []
    (∃ answer, (lobby.handle start activatesAda db).1 = some answer ∧ answer.Activated 2 true ∧
      (lobby.handle start activatesAda db).2 = db' ∧ db' ≠ db ∧ Reports activatesAda answer) ∧
    (∃ answer, (lobby.handle start activatesAda db').1 = some answer ∧ answer.Activated 2 false) ∧
    ∃ answer, (lobby.handle start strange db).1 = some answer ∧ 400 ≤ answer.status ∧
      (lobby.handle start strange db).2 = db := by
  intro db db' start strange
  have legible : db.Legible := (Database.legible_empty {}).run (by decide +kernel)
  have legible' : db'.Legible := legible.withVerified (by decide +kernel) ⟨2⟩
  have number : Route.userNumber? ['2'] = some 2 := by decide +kernel
  have awaits : ∃ u ∈ db.users.rows, u.awaits ⟨2⟩ = true := by decide +kernel
  have settled : ∀ u ∈ db'.users.rows, u.awaits ⟨2⟩ = false := by decide +kernel
  have there : ∃ u ∈ db'.users.rows, u.lives ⟨2⟩ = true := by decide +kernel
  have ruth : ∃ user, Database.userBySession .epoch "ruths" db = .ok (some user) ∧ user.isAdmin = true :=
    exists_admin_of_any (by decide +kernel)
  have ruth' : ∃ user, Database.userBySession .epoch "ruths" db' = .ok (some user) ∧ user.isAdmin = true :=
    exists_admin_of_any (by decide +kernel)
  refine ⟨?_, ?_, ?_⟩
  · obtain ⟨user, found, admin⟩ := ruth
    obtain ⟨changes, _, _, asks⟩ := effects lobby start activatesAda db
    obtain ⟨answer, answered, readable, store, _⟩ :=
      asks ['2'] 2 "ruths" user rfl (by decide) (by decide) number activatesAda_presents found admin
    have activated := (readable fun u hu _ => legible u hu).1.mpr awaits
    have changed : db' ≠ db := by decide +kernel
    obtain ⟨_, other, answered', reports⟩ := changes (by rw [store activated]; exact changed)
    cases answered.symm.trans answered'
    exact ⟨answer, answered, activated, store activated, changed, reports⟩
  · obtain ⟨user, found, admin⟩ := ruth'
    obtain ⟨_, _, _, asks⟩ := effects lobby start activatesAda db'
    obtain ⟨answer, answered, readable, _, _⟩ :=
      asks ['2'] 2 "ruths" user rfl (by decide) (by decide) number activatesAda_presents found admin
    exact ⟨answer, answered, (readable fun u hu _ => legible' u hu).2.1.mpr ⟨there, settled⟩⟩
  · have status : (lobby.handle start strange db).1.map Response.status = some 401 := by decide +kernel
    obtain ⟨answer, answered, refused⟩ := Option.map_eq_some_iff.mp status
    obtain ⟨_, refusals, _, _⟩ := effects lobby start strange db
    have high : 400 ≤ answer.status := by omega
    exact ⟨answer, answered, high, refusals answer answered high⟩

/-- Ada is there and waits to be verified, and Ruth is told that something went wrong inside. -/
theorem activation_blurred :
    let start : Moment := ⟨.epoch, .epoch, "", [], 0⟩
    lobby.Presents activatesAda "ruths" ∧
    (∃ user, Database.userBySession .epoch "ruths" blurred = .ok (some user) ∧ user.isAdmin = true) ∧
    (∃ u ∈ blurred.users.rows, u.id = 2 ∧ u.isDeleted = false ∧ u.verifiedAt = none) ∧
    ∃ answer, (lobby.handle start activatesAda blurred).1 = some answer ∧ answer.status = 500 ∧
      ¬ answer.Activated 2 true := by
  intro start
  have status : (lobby.handle start activatesAda blurred).1.map Response.status = some 500 := by decide +kernel
  obtain ⟨answer, answered, failed⟩ := Option.map_eq_some_iff.mp status
  refine ⟨activatesAda_presents, exists_admin_of_any (by decide +kernel), by decide +kernel, answer, answered,
    failed, ?_⟩
  intro activated
  rw [activated.1] at failed
  cases failed

end App

end Gatehouse.Http
