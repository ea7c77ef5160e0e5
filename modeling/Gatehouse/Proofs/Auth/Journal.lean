import Gatehouse.Proofs.Auth.Requests
import Mathlib.Data.List.Forall2

/-! # What requests make of the store and of the answers

A journal is a store together with all answers given so far. A request turns a journal in one of five
ways, whether it is made at once or in two steps with others between them: every invariant of stores and
answers is proved for these five only.
-/

namespace Gatehouse.Auth

open Gatehouse.Store Gatehouse.Time

/-- The store and what has been answered, the oldest answer first. -/
structure Journal where
  db : Database
  log : List (Request × Answer)

/-- A registration that was answered with an account. -/
structure Enrolment where
  registration : Registration
  clientIp : String
  account : UserWithNamespace

def Enrolment.username (e : Enrolment) : String :=
  e.registration.storedUsername

def Enrolment.id (e : Enrolment) : Int :=
  e.account.user.id.number

/-- A login that was answered with a session. -/
structure Login where
  request : LoginRequest
  clientIp : String
  answer : LoginAnswer

def enrolment? : Request × Answer → Option Enrolment
  | (.register r clientIp, .registered (.ok account)) => some ⟨r, clientIp, account⟩
  | _ => none

def login? : Request × Answer → Option Login
  | (.signIn login clientIp, .signedIn (.ok answer)) => some ⟨login, clientIp, answer⟩
  | _ => none

namespace Journal

def start (names : TableNames) : Journal :=
  ⟨.empty names, []⟩

theorem housed_start (names : TableNames) : (start names).db.Housed :=
  Database.housed_empty names

/-- The registrations that were answered with an account, the oldest first. -/
def enrolments (j : Journal) : List Enrolment :=
  j.log.filterMap enrolment?

/-- The logins that were answered with a session, the oldest first. -/
def logins (j : Journal) : List Login :=
  j.log.filterMap login?

end Journal

/-- The ways in which a step of a request turns a journal, with the clock read once or a second time. -/
inductive Service.Turn (service : Service) (now noted : Instant) : Journal → Journal → Prop
  /-- Some answers are given, but none that makes an account or a session. -/
  | answered (j : Journal) (entries : List (Request × Answer))
      (nothing : ∀ entry ∈ entries, enrolment? entry = none ∧ login? entry = none) :
      Turn service now noted j ⟨j.db, j.log ++ entries⟩
  | enrolled (j : Journal) (salt : List UInt8) (r : Registration) (clientIp : String)
      (free : j.db.IsFree r.storedUsername r.storedEmail) :
      Turn service now noted j
        ⟨j.db.withAccount now (service.newUser salt r clientIp) r.storedUsername,
          j.log ++ [(.register r clientIp,
            .registered (.ok (j.db.account now (service.newUser salt r clientIp) r.storedUsername)))]⟩
  | signedIn (j : Journal) (login : LoginRequest) (clientIp : String) (user : User) (draft : Draft)
      (fits : Pending.Fits j.db (.signIn login clientIp user))
      (unused : ∀ s ∈ j.db.sessions.rows, s.token ≠ draft.token) :
      Turn service now noted j
        ⟨j.db.withLogin noted user.id clientIp (draft.toSession user.id clientIp),
          j.log ++ [(.signIn login clientIp, .signedIn (.ok (loginAnswer j.db user draft)))]⟩
  | activated (j : Journal) (id : UserId) (made : Bool) :
      Turn service now noted j ⟨j.db.withVerified now id, j.log ++ [(.activate id, .activated (.ok made))]⟩
  | deleted (j : Journal) (id : UserId) (made : Bool) :
      Turn service now noted j ⟨j.db.withDeleted now id, j.log ++ [(.softDelete id, .softDeleted (.ok made))]⟩

namespace Service

variable {service : Service} {now noted : Instant} {j j' : Journal}

/-! ## Every step is a turn -/

/-- One answer that makes no account and no session. -/
theorem turn_answer (j : Journal) {request : Request} {answer : Answer}
    (noAccount : enrolment? (request, answer) = none) (noSession : login? (request, answer) = none) :
    service.Turn now noted j ⟨j.db, j.log ++ [(request, answer)]⟩ := by
  apply Turn.answered
  intro entry he
  rw [List.mem_singleton.mp he]
  exact ⟨noAccount, noSession⟩

/--
A first step answers, and is a turn, or it leaves the journal as it is and goes on with something that
fits the store.
-/
theorem begin_cases (service : Service) (h : j.db.Ready) (now noted : Instant) (request : Request) :
    (∃ answer db', service.begin now request j.db = (.answered answer, db') ∧
      service.Turn now noted j ⟨db', j.log ++ [(request, answer)]⟩) ∨
    ∃ rest, service.begin now request j.db = (.pending rest, j.db) ∧ rest.request = request ∧
      rest.Fits j.db := by
  cases request with
  | register r clientIp =>
      rw [begin]
      cases permit r j.db with
      | error e => exact Or.inl ⟨_, _, rfl, turn_answer j rfl rfl⟩
      | ok => exact Or.inr ⟨_, rfl, rfl, trivial⟩
  | signIn login clientIp =>
      rw [begin]
      cases hc : service.credentials login j.db with
      | error e => exact Or.inl ⟨_, _, rfl, turn_answer j rfl rfl⟩
      | ok user => exact Or.inr ⟨_, rfl, rfl, fits_of_credentials service hc clientIp⟩
  | activate id =>
      rw [begin]
      cases findAccount id j.db with
      | error e => exact Or.inl ⟨_, _, rfl, turn_answer j rfl rfl⟩
      | ok => exact Or.inr ⟨_, rfl, rfl, trivial⟩
  | authenticate token => exact Or.inl ⟨_, _, rfl, turn_answer j rfl rfl⟩
  | softDelete id =>
      rw [begin, softDelete_commit h]
      exact Or.inl ⟨_, _, rfl, Turn.deleted j id _⟩

theorem turn_finish (h : j.db.Housed) {rest : Pending} (fits : rest.Fits j.db) {draw : Draw}
    {answer : Answer} {db' : Database} (done : service.finish draw rest j.db = some (answer, db')) :
    service.Turn draw.now draw.noted j ⟨db', j.log ++ [(rest.request, answer)]⟩ := by
  cases rest with
  | register r clientIp =>
      rw [finish] at done
      by_cases free : j.db.IsFree r.storedUsername r.storedEmail
      · rw [enrol_of_free service h free] at done
        cases done
        exact Turn.enrolled j draw.salt r clientIp free
      · rw [enrol_of_not_free service h free] at done
        cases done
        exact turn_answer j rfl rfl
  | signIn login clientIp user =>
      have there : ∃ r ∈ j.db.users.rows, r.id = user.id.number := by
        obtain ⟨r, hr, row, _⟩ := fits
        exact ⟨r, hr, by rw [row.id]⟩
      rw [finish] at done
      cases hd : Draft.issue? service.policy draw.now draw.token with
      | none => rw [hd] at done; cases done
      | some draft =>
          rw [hd, Option.map_some] at done
          by_cases used : ∃ s ∈ j.db.sessions.rows, s.token = draft.token
          · rw [openSession_of_used h.sound.ready there used] at done
            cases done
            exact turn_answer j rfl rfl
          · have unused : ∀ s ∈ j.db.sessions.rows, s.token ≠ draft.token :=
              fun s hs he => used ⟨s, hs, he⟩
            rw [openSession_of_unused h.sound.ready there unused] at done
            cases done
            exact Turn.signedIn j login clientIp user draft fits unused
  | activate id =>
      rw [finish, verifyAccount_eq h.sound.ready] at done
      cases done
      exact Turn.activated j id _

theorem turn_perform (h : j.db.Housed) {draw : Draw} {request : Request} {answer : Answer}
    {db' : Database} (done : service.perform draw request j.db = some (answer, db')) :
    service.Turn draw.now draw.noted j ⟨db', j.log ++ [(request, answer)]⟩ := by
  rw [perform_eq] at done
  rcases begin_cases service h.sound.ready draw.now draw.noted request with
    ⟨first, db, answered, turn⟩ | ⟨rest, goesOn, rfl, fits⟩
  · rw [answered] at done
    cases done
    exact turn
  · rw [goesOn] at done
    exact turn_finish h fits done

/-! ## What every turn keeps -/

theorem Turn.housed (turn : service.Turn now noted j j') (h : j.db.Housed) : j'.db.Housed := by
  cases turn with
  | answered entries nothing => exact h
  | enrolled salt r clientIp free => 
      have admitted := (admits_newUser_iff service h salt clientIp).mpr free
      exact h.withAccount (newUser_username service salt r clientIp) admitted
  | signedIn login clientIp user draft fits unused =>
      obtain ⟨r, hr, row, _⟩ := fits
      exact h.withLogin noted user.id clientIp unused ⟨r, hr, by rw [Draft.toSession, row.id]⟩
  | activated id made => exact h.withVerified now id
  | deleted id made => exact h.withDeleted now id

theorem Turn.legible (turn : service.Turn now noted j j') (dated : now.Dated) (dated' : noted.Dated)
    (hl : j.db.Legible) :
    j'.db.Legible := by
  cases turn with
  | answered entries nothing => exact hl
  | enrolled salt r clientIp free => exact hl.withAccount dated _ _
  | signedIn login clientIp user draft fits unused => exact hl.withLogin dated' user.id clientIp _
  | activated id made => exact hl.withVerified dated id
  | deleted id made => exact hl.withDeleted dated id

theorem Turn.keeps (turn : service.Turn now noted j j') (h : j.db.Housed) : j.db.Keeps j'.db := by
  cases turn with
  | answered entries nothing => exact Database.Keeps.refl _
  | enrolled salt r clientIp free =>
      have admitted := (admits_newUser_iff service h salt clientIp).mpr free
      exact Database.keeps_withAccount h.sound admitted
  | signedIn login clientIp user draft fits unused =>
      exact Database.keeps_modifyUsers _ _ (UserRow.settled_loggedIn noted clientIp) _
  | activated id made => exact Database.keeps_modifyUsers _ _ (UserRow.settled_verified now) _
  | deleted id made => exact Database.keeps_modifyUsers _ _ (UserRow.settled_deleted now) _

end Service

/-! ## Rows and answers -/

/-- A row of a user is that of an answered registration. -/
structure Enrolment.IsOf (row : UserRow) (e : Enrolment) : Prop where
  id : row.id = e.id
  username : row.username = e.username
  email : row.email = e.registration.storedEmail
  name : row.name = e.registration.displayName
  registerIp : row.registerIp = e.clientIp

/-- A row of a session is that of an answered login, and belongs to the user who was named in it. -/
structure Login.IsOf (db : Database) (row : SessionRow) (l : Login) : Prop where
  token : row.token = l.answer.token
  clientIp : row.clientIp = l.clientIp
  owner : ∃ u ∈ db.users.rows, u.id = row.ownerId ∧ u.email = l.answer.email ∧ u.name = l.answer.name ∧
    (Identifier.ofString l.request.identifier).Names u

theorem Identifier.Names.of_same {identifier : Identifier} {r r' : UserRow}
    (h : identifier.Names r) (same : r.Same r') : identifier.Names r' := by
  cases identifier with
  | email address => exact same.email.trans h
  | username name => exact same.username.trans h

theorem Login.IsOf.of_keeps {db db' : Database} {row : SessionRow} {l : Login}
    (h : Login.IsOf db row l) (keeps : db.Keeps db') : Login.IsOf db' row l := by
  obtain ⟨u, hu, hid, hemail, hname, named⟩ := h.owner
  obtain ⟨u', hu', same⟩ := keeps.users u hu
  exact ⟨h.token, h.clientIp, u', hu', same.id.trans hid, same.email.trans hemail,
    same.name.trans hname, named.of_same same⟩

namespace Journal

/-- Users and sessions are the answered registrations and logins, one for one and in their order. -/
structure Recorded (j : Journal) : Prop where
  users : List.Forall₂ Enrolment.IsOf j.db.users.rows j.enrolments
  sessions : List.Forall₂ (Login.IsOf j.db) j.db.sessions.rows j.logins

variable {service : Service} {now noted : Instant} {j j' : Journal}

theorem recorded_start (names : TableNames) : (start names).Recorded :=
  ⟨List.Forall₂.nil, List.Forall₂.nil⟩

/-- Rows that change only in what is not recorded stay recorded. -/
private theorem forall₂_map_of_same {f : UserRow → UserRow} (hf : ∀ r : UserRow, r.Same (f r))
    {rows : List UserRow} {es : List Enrolment} (h : List.Forall₂ Enrolment.IsOf rows es) :
    List.Forall₂ Enrolment.IsOf (rows.map f) es := by
  rw [List.forall₂_map_left_iff]
  refine h.imp fun r e hr => ?_
  have same := hf r
  exact ⟨same.id.trans hr.id, same.username.trans hr.username, same.email.trans hr.email,
    same.name.trans hr.name, same.registerIp.trans hr.registerIp⟩

private theorem Recorded.users_modify (h : j.Recorded) {f : UserRow → UserRow}
    (hf : UserRow.Settled f) (p : UserRow → Bool) :
    List.Forall₂ Enrolment.IsOf (j.db.users.modify p f).rows j.enrolments :=
  forall₂_map_of_same (UserRow.Same.ite hf.same p) h.users

/-- Sessions stay recorded while their users are kept. -/
private theorem Recorded.sessions_keep (h : j.Recorded) {db' : Database} (keeps : j.db.Keeps db') :
    List.Forall₂ (Login.IsOf db') j.db.sessions.rows j.logins :=
  h.sessions.imp fun _ _ hl => hl.of_keeps keeps

theorem enrolments_append (db : Database) (entries : List (Request × Answer)) :
    enrolments ⟨db, j.log ++ entries⟩ = j.enrolments ++ entries.filterMap enrolment? :=
  List.filterMap_append

theorem logins_append (db : Database) (entries : List (Request × Answer)) :
    logins ⟨db, j.log ++ entries⟩ = j.logins ++ entries.filterMap login? :=
  List.filterMap_append

private theorem enrolments_unchanged {entry : Request × Answer} (db : Database)
    (h : enrolment? entry = none) : enrolments ⟨db, j.log ++ [entry]⟩ = j.enrolments := by
  rw [enrolments_append, List.filterMap_cons_none h, List.filterMap_nil, List.append_nil]

private theorem logins_unchanged {entry : Request × Answer} (db : Database)
    (h : login? entry = none) : logins ⟨db, j.log ++ [entry]⟩ = j.logins := by
  rw [logins_append, List.filterMap_cons_none h, List.filterMap_nil, List.append_nil]

theorem Recorded.turn (h : j.Recorded) (housed : j.db.Housed) (turn : service.Turn now noted j j') :
    j'.Recorded := by
  have keeps := turn.keeps housed
  have sessions := h.sessions_keep keeps
  cases turn with
  | answered entries nothing =>
      have noAccounts := List.filterMap_eq_nil_iff.mpr fun e he => (nothing e he).1
      have noSessions := List.filterMap_eq_nil_iff.mpr fun e he => (nothing e he).2
      constructor
      · rw [enrolments_append, noAccounts, List.append_nil]
        exact h.users
      · rw [logins_append, noSessions, List.append_nil]
        exact h.sessions
  | enrolled salt r clientIp free =>
      constructor
      · rw [enrolments_append]
        refine List.rel_append ?_ (List.Forall₂.cons ?_ List.Forall₂.nil)
        · exact forall₂_map_of_same (Database.same_released _) h.users
        · have name := Service.newUser_name service salt r clientIp
          exact ⟨rfl, rfl, rfl, Database.accountRow_name.trans name, rfl⟩
      · rw [logins_unchanged]
        · exact sessions
        · rfl
  | signedIn login clientIp user draft fits unused =>
      constructor
      · rw [enrolments_unchanged]
        · exact h.users_modify (UserRow.settled_loggedIn noted clientIp) _
        · rfl
      · rw [logins_append]
        refine List.rel_append sessions (List.Forall₂.cons ?_ List.Forall₂.nil)
        obtain ⟨r, hr, row, named⟩ := fits
        obtain ⟨r', hr', same⟩ := keeps.users r hr
        have owner : r'.id = user.id.number := by rw [same.id, row.id]
        exact ⟨rfl, rfl, r', hr', owner, same.email.trans row.email.symm, same.name.trans row.name.symm,
          named.of_same same⟩
  | activated id made =>
      constructor
      · rw [enrolments_unchanged]
        · exact h.users_modify (UserRow.settled_verified now) _
        · rfl
      · rw [logins_unchanged]
        · exact sessions
        · rfl
  | deleted id made =>
      constructor
      · rw [enrolments_unchanged]
        · exact h.users_modify (UserRow.settled_deleted now) _
        · rfl
      · rw [logins_unchanged]
        · exact sessions
        · rfl

end Journal

end Gatehouse.Auth
