import Gatehouse.Auth.Service
import Gatehouse.Proofs.Auth.Acceptance
import Gatehouse.Proofs.Store.Homes
import Gatehouse.Proofs.Store.Legible

/-! # Requests and their steps

A request is begun and, unless that already answers it, finished by a second step. What happens to the
store between the two is not said here: each step is told on any store that has the properties it relies
on, and performing a request at once is beginning and finishing it on one store.
-/

namespace Gatehouse.Auth

open Gatehouse.Store Gatehouse.Text Gatehouse.Time

/-- What is asked of the service, and the deletion of an account. -/
inductive Request
  | register (r : Registration) (clientIp : String)
  | signIn (login : LoginRequest) (clientIp : String)
  | activate (id : UserId)
  | authenticate (token : String)
  | softDelete (id : UserId)
  deriving Repr, DecidableEq

inductive Answer
  | registered (outcome : Except Error UserWithNamespace)
  | signedIn (outcome : Except Error LoginAnswer)
  | activated (outcome : Except Error Bool)
  | authenticated (outcome : Except Error User)
  | softDeleted (outcome : Except Store.Error Bool)

/-- The cause, where the store is what fails. -/
def Answer.fault? : Answer → Option Store.Error
  | registered (.error (.store e)) => some e
  | signedIn (.error (.store e)) => some e
  | activated (.error (.store e)) => some e
  | authenticated (.error (.store e)) => some e
  | softDeleted (.error e) => some e
  | _ => none

/-- A request between its two steps, with what the first one has found. -/
inductive Pending
  | register (r : Registration) (clientIp : String)
  | signIn (login : LoginRequest) (clientIp : String) (user : User)
  | activate (id : UserId)
  deriving Repr, DecidableEq

def Pending.request : Pending → Request
  | register r clientIp => .register r clientIp
  | signIn login clientIp _ => .signIn login clientIp
  | activate id => .activate id

/-- What a step gets from outside: the clock, a salt for a hash and a token for a session. -/
structure Draw where
  now : Instant
  /-- The clock when it is read again, for the note of a login. -/
  noted : Instant
  salt : List UInt8
  token : String
  deriving Repr, DecidableEq

/-- Whenever the clock is read it shows a year of four digits. -/
def Draw.Dated (draw : Draw) : Prop :=
  draw.now.Dated ∧ draw.noted.Dated

instance (draw : Draw) : Decidable draw.Dated :=
  inferInstanceAs (Decidable (_ ∧ _))

/-- How far a first step brings a request. -/
inductive Progress
  | answered (answer : Answer)
  | pending (rest : Pending)

/-- Whether an identifier is the address or the name of a row. -/
def Identifier.Names : Identifier → UserRow → Prop
  | email address, r => r.email = address
  | username name, r => r.username = name

/-- What the first step has found is still in the store. -/
def Pending.Fits (db : Database) : Pending → Prop
  | signIn login _ user => ∃ r ∈ db.users.rows, r.IsRowOf user ∧ (Identifier.ofString login.identifier).Names r
  | _ => True

namespace Service

variable (service : Service)

def begin (now : Instant) : Request → Database → Progress × Database
  | .register r clientIp, db =>
    match permit r db with
    | .error e => (.answered (.registered (.error e)), db)
    | .ok () => (.pending (.register r clientIp), db)
  | .signIn login clientIp, db =>
    match service.credentials login db with
    | .error e => (.answered (.signedIn (.error e)), db)
    | .ok user => (.pending (.signIn login clientIp user), db)
  | .activate id, db =>
    match findAccount id db with
    | .error e => (.answered (.activated (.error e)), db)
    | .ok () => (.pending (.activate id), db)
  | .authenticate token, db => (.answered (.authenticated (authenticate now token db)), db)
  | .softDelete id, db =>
    let (outcome, db) := (Database.softDelete now id).commit db
    (.answered (.softDeleted outcome), db)

/-- The second step of a request. None is made where the expiry of a session has no name. -/
def finish (draw : Draw) : Pending → Database → Option (Answer × Database)
  | .register r clientIp, db =>
    let (outcome, db) := service.enrol draw.now draw.salt r clientIp db
    some (.registered outcome, db)
  | .signIn _ clientIp user, db =>
    (Draft.issue? service.policy draw.now draw.token).map fun draft =>
      let (outcome, db) := openSession draw.noted user draft clientIp db
      (.signedIn outcome, db)
  | .activate id, db =>
    let (outcome, db) := verifyAccount draw.now id db
    some (.activated outcome, db)

def perform (draw : Draw) : Request → Database → Option (Answer × Database)
  | .register r clientIp, db =>
    let (outcome, db) := service.register draw.now draw.salt r clientIp db
    some (.registered outcome, db)
  | .signIn login clientIp, db =>
    (service.signIn draw.now draw.noted draw.token login clientIp db).map fun (outcome, db) =>
      (.signedIn outcome, db)
  | .activate id, db =>
    let (outcome, db) := activate draw.now id db
    some (.activated outcome, db)
  | .authenticate token, db => some (.authenticated (authenticate draw.now token db), db)
  | .softDelete id, db =>
    let (outcome, db) := (Database.softDelete draw.now id).commit db
    some (.softDeleted outcome, db)

theorem perform_eq (draw : Draw) (request : Request) (db : Database) :
    service.perform draw request db =
      match service.begin draw.now request db with
      | (.answered answer, db) => some (answer, db)
      | (.pending rest, db) => service.finish draw rest db := by
  cases request with
  | register r clientIp =>
      rw [perform, register, begin]
      cases permit r db <;> rfl
  | signIn login clientIp =>
      rw [perform, signIn, begin]
      cases service.credentials login db with
      | error e => rfl
      | ok user =>
          simp only [finish]
          cases Draft.issue? service.policy draw.now draw.token <;> rfl
  | activate id =>
      rw [perform, activate, begin]
      cases findAccount id db <;> rfl
  | authenticate token => rfl
  | softDelete id => rfl

/-! ## First steps -/

section FirstSteps

variable {db : Database} {r : Registration}

theorem stored_of_check (h : r.check = .ok ()) : r.storedUsername ≠ "" ∧ r.storedEmail ≠ "" := by
  have kept := Registration.check_eq_ok_iff.mp h
  refine ⟨kept.username_ne, ?_⟩
  -- the empty text has no at sign
  intro empty
  have at_sign := kept.at_mem
  rw [empty] at at_sign
  cases at_sign

/-- A registration is rejected by its own rules first, and then by who is there. -/
theorem permit_cases (hl : db.Legible) (h : db.Ready) (r : Registration) :
    (∃ why, r.check = .error why ∧ permit r db = .error (.rejected why)) ∨
      (r.check = .ok () ∧ db.IsFree r.storedUsername r.storedEmail ∧ permit r db = .ok ()) ∨
      (r.check = .ok () ∧ ¬ db.IsFree r.storedUsername r.storedEmail ∧
        permit r db = .error .taken) := by
  cases hc : r.check with
  | error why =>
      refine Or.inl ⟨why, rfl, ?_⟩
      simp only [permit, hc]
      rfl
  | ok checked =>
      obtain ⟨hu, he⟩ := stored_of_check hc
      obtain ⟨taken, answered, free_iff⟩ := hl.userExists h hu he
      have asked : permit r db = if taken then .error .taken else .ok () := by
        simp only [permit, hc, Inquiry.ofQuery, answered]
        rfl
      cases taken with
      | false => exact Or.inr (Or.inl ⟨rfl, free_iff.mp rfl, asked⟩)
      | true =>
          refine Or.inr (Or.inr ⟨rfl, ?_, asked⟩)
          intro free
          cases free_iff.mpr free

theorem userOf_eq (db : Database) (identifier : Identifier) : ∃ p : UserRow → Bool,
    (∀ r, p r = true ↔ identifier.Names r) ∧
      userOf identifier db = (Database.userWhere p db).mapError Error.store := by
  cases identifier with
  | email address => exact ⟨fun r => r.email = address, fun _ => decide_eq_true_iff, rfl⟩
  | username name => exact ⟨fun r => r.username = name, fun _ => decide_eq_true_iff, rfl⟩

/-- Whatever the store, who passes is verified, has the password and has been read from a row that is named. -/
theorem read_of_credentials {login : LoginRequest} {user : User}
    (passed : service.credentials login db = .ok user) :
    ∃ r ∈ db.users.rows, r.isDeleted = false ∧ (Identifier.ofString login.identifier).Names r ∧
      r.toUser = .ok user ∧ user.isVerified = true ∧
      Password.verify service.derive login.password user.passwordHash = .ok true := by
  obtain ⟨p, names, asked⟩ := userOf_eq db (Identifier.ofString login.identifier)
  rw [credentials, asked] at passed
  cases hw : Database.userWhere p db with
  | error e =>
      rw [hw] at passed
      cases passed
  | ok found =>
      rw [hw] at passed
      cases found with
      | none => cases passed
      | some other =>
          -- the checks that follow pass this user on or nobody
          simp only [ok_mapError, ok_bind] at passed
          split at passed
          · cases passed
          · rename_i verified
            split at passed
            · cases passed
            · cases passed
            · rename_i accepted
              cases passed
              obtain ⟨r, hr, hp, hd, read⟩ := Database.read_of_userWhere hw
              exact ⟨r, hr, hd, (names r).mp hp, read, by simpa using verified, accepted⟩

/-- A login goes on with the user of a row that its identifier names. -/
theorem fits_of_credentials {login : LoginRequest} {user : User}
    (passed : service.credentials login db = .ok user) (clientIp : String) :
    Pending.Fits db (.signIn login clientIp user) := by
  obtain ⟨r, hr, _, named, read, _, _⟩ := service.read_of_credentials passed
  exact ⟨r, hr, (UserRow.readAs_of_toUser read).toIsRowOf, named⟩

theorem credentials_ne_store (hl : db.Legible) (h : db.Ready) (login : LoginRequest) (e : Store.Error) :
    service.credentials login db ≠ .error (.store e) := by
  obtain ⟨p, _, asked⟩ := userOf_eq db (Identifier.ofString login.identifier)
  obtain ⟨found, answered, _⟩ := hl.userWhere h p
  rw [credentials, asked, answered]
  intro failed
  cases found with
  | none => cases failed
  | some user =>
      simp only [ok_mapError, ok_bind] at failed
      split at failed
      · cases failed
      · split at failed <;> cases failed

theorem findAccount_ne_store (hl : db.Legible) (h : db.Ready) (id : UserId) (e : Store.Error) :
    findAccount id db ≠ .error (.store e) := by
  obtain ⟨found, answered, _⟩ := hl.userWhere h fun r => r.id = id.number
  simp only [findAccount, Inquiry.ofQuery, Database.userById, answered]
  intro failed
  cases found <;> cases failed

theorem authenticate_of_some {now : Instant} {token : String} {user : User}
    (found : Database.userBySession now token db = .ok (some user)) : authenticate now token db = .ok user := by
  simp only [authenticate, Inquiry.ofQuery, found]
  rfl

theorem authenticate_of_none {now : Instant} {token : String}
    (nobody : Database.userBySession now token db = .ok none) : authenticate now token db = .error .noSession := by
  simp only [authenticate, Inquiry.ofQuery, nobody]
  rfl

theorem authenticate_ne_store (hl : db.Legible) (h : db.Ready) (now : Instant) (token : String)
    (e : Store.Error) : authenticate now token db ≠ .error (.store e) := by
  obtain ⟨found, answered⟩ := hl.userBySession h now token
  simp only [authenticate, Inquiry.ofQuery, answered]
  intro failed
  cases found <;> cases failed

end FirstSteps

/-! ## Second steps -/

def newUser (salt : List UInt8) (r : Registration) (clientIp : String) : NewUser where
  email := r.storedEmail
  username := r.storedUsername
  name := r.displayName
  passwordHash := Password.hash service.derive r.password salt
  publicEmail := r.publicEmail
  isAdmin := false
  registerIp := clientIp

section SecondSteps

variable {db : Database} {r : Registration}

theorem enrol_eq (now : Instant) (salt : List UInt8) (r : Registration) (clientIp : String) :
    service.enrol now salt r clientIp = Action.ofChange
      (Database.commitRegistration now (service.newUser salt r clientIp) r.storedUsername)
      registrationRefused := rfl

theorem newUser_username (salt : List UInt8) (r : Registration) (clientIp : String) :
    (service.newUser salt r clientIp).username = r.storedUsername := rfl

theorem newUser_name (salt : List UInt8) (r : Registration) (clientIp : String) :
    (service.newUser salt r clientIp).name = r.displayName := by
  simp only [newUser]

theorem admits_newUser_iff (h : db.Housed) (salt : List UInt8) (clientIp : String) :
    db.Admits (service.newUser salt r clientIp) r.storedUsername ↔
      db.IsFree r.storedUsername r.storedEmail := by
  rw [← newUser_username service salt r clientIp]
  exact h.admits_iff

theorem enrol_of_free (h : db.Housed) (free : db.IsFree r.storedUsername r.storedEmail) (now : Instant)
    (salt : List UInt8) (clientIp : String) :
    service.enrol now salt r clientIp db =
      (.ok (db.account now (service.newUser salt r clientIp) r.storedUsername),
        db.withAccount now (service.newUser salt r clientIp) r.storedUsername) := by
  have admitted := (admits_newUser_iff service h salt clientIp).mpr free
  have made := Database.commitRegistration_of_admits h.sound now admitted
  rw [enrol_eq, Action.ofChange, Change.commit_of_ok made]
  rfl

theorem enrol_of_not_free (h : db.Housed) (held : ¬ db.IsFree r.storedUsername r.storedEmail)
    (now : Instant) (salt : List UInt8) (clientIp : String) :
    service.enrol now salt r clientIp db = (.error .taken, db) := by
  have refused := mt (admits_newUser_iff service h salt clientIp).mp held
  obtain ⟨e, he, conflict⟩ := Database.commitRegistration_of_not_admits h.sound now refused
  rw [enrol_eq, Action.ofChange, Change.commit_of_error he]
  simp only [error_mapError, registrationRefused, conflict, if_true]

theorem verifyAccount_eq (h : db.Ready) (now : Instant) (id : UserId) :
    verifyAccount now id db = (.ok (db.users.any (UserRow.awaits id)), db.withVerified now id) := by
  have made := (Database.activate_eq h now id).trans (updateUsers_eq h _ _)
  rw [verifyAccount, Action.ofChange, Change.commit_of_ok made]
  rfl

theorem softDelete_commit (h : db.Ready) (now : Instant) (id : UserId) :
    (Database.softDelete now id).commit db =
      (.ok (db.users.any (UserRow.lives id)), db.withDeleted now id) :=
  Change.commit_of_ok ((Database.softDelete_eq h now id).trans (updateUsers_eq h _ _))

def loginAnswer (db : Database) (user : User) (draft : Draft) : LoginAnswer where
  token := draft.token
  path := (db.namespaces.find? fun n => n.ownedBy user.id.number .user).map (·.path)
  name := user.name
  email := user.email
  publicEmail := user.publicEmail

/-- A login of a user who has a row is made with any token that no session has. -/
theorem openSession_of_unused (h : db.Ready) {user : User} (row : ∃ r ∈ db.users.rows, r.id = user.id.number)
    {draft : Draft} (unused : ∀ s ∈ db.sessions.rows, s.token ≠ draft.token) (noted : Instant)
    (clientIp : String) :
    openSession noted user draft clientIp db = (.ok (loginAnswer db user draft),
      db.withLogin noted user.id clientIp (draft.toSession user.id clientIp)) := by
  have there : db.users.any (fun r => r.id = user.id.number) = true := by simpa using row
  have owned : db.users.any (fun r => r.id = (draft.toSession user.id clientIp).ownerId.number) = true :=
    there
  have fresh : ¬ db.sessions.any (fun s => s.token = (draft.toSession user.id clientIp).token) = true := by
    rw [Table.any_eq_true]
    rintro ⟨s, hs, he⟩
    exact unused s hs (of_decide_eq_true he)
  have made := Database.commitLogin_eq h noted user.id clientIp (draft.toSession user.id clientIp)
  rw [if_pos there, if_neg fresh, if_pos owned] at made
  rw [openSession, Action.ofChange, Change.commit_of_ok made]
  simp only [ok_mapError, Except.map, NewSession.toSession, Option.map_map]
  rfl

/-- With the token of another session a login is refused. -/
theorem openSession_of_used (h : db.Ready) {user : User} (row : ∃ r ∈ db.users.rows, r.id = user.id.number)
    {draft : Draft} (used : ∃ s ∈ db.sessions.rows, s.token = draft.token) (noted : Instant)
    (clientIp : String) :
    openSession noted user draft clientIp db = (.error (.store .tokenTaken), db) := by
  have there : db.users.any (fun r => r.id = user.id.number) = true := by simpa using row
  have taken : db.sessions.any (fun s => s.token = (draft.toSession user.id clientIp).token) = true := by
    obtain ⟨s, hs, he⟩ := used
    exact Table.any_eq_true.mpr ⟨s, hs, decide_eq_true he⟩
  have refused := Database.commitLogin_eq h noted user.id clientIp (draft.toSession user.id clientIp)
  rw [if_pos there, if_pos taken] at refused
  rw [openSession, Action.ofChange, Change.commit_of_error refused]
  rfl

end SecondSteps

end Service

end Gatehouse.Auth
