import Gatehouse.Proofs.Store.Logins
import Gatehouse.Proofs.Store.Readings

/-! # Three questions about one expiry

Whether a session has expired is asked in the query for its user, in the query for the session, and of the
session once it has been read. The first two compare texts, the last compares instants, and a text tells
instants apart down to the microsecond. So the three agree on an instant that is cut to the microsecond. On an
uncut one the queries still find a session that has expired within the microsecond. The instants of the
sessions have four digits for their years here; nothing is said of those of the users.
-/

namespace Gatehouse

open Gatehouse.Store Gatehouse.Time

theorem Time.Instant.toMicros_le_of_le {s t : Instant} (h : s ≤ t) : s.toMicros ≤ t := by
  rw [Instant.le_def] at h ⊢
  simp only [Instant.toMicros]
  omega

/-- Both instants of a new session have four digits for the year. -/
structure NewSession.Timed (data : NewSession) : Prop where
  created : data.createdAt.Dated ∧ data.createdAt.Proper
  expired : data.expiredAt.Dated ∧ data.expiredAt.Proper

/-- The data of the session that an operation asks for, if it asks for one. -/
def Store.Operation.session? : Operation → Option NewSession
  | .createSession data => some data
  | .commitLogin _ _ _ data => some data
  | _ => none

namespace Store

theorem Operation.Opens.session? {o : Operation} {s : SessionRow} (h : o.Opens s) :
    ∃ data ∈ o.session?, data.toRow s.id = s := by
  cases h with
  | session data k => exact ⟨data, rfl, rfl⟩
  | signedIn now id clientIp data k => exact ⟨data, rfl, rfl⟩

namespace Database

variable {db : Database} {now : Instant} {token : String}

/-- All sessions have been made with instants of such years. -/
def Timed (db : Database) : Prop :=
  ∀ s ∈ db.sessions.rows, ∃ data : NewSession, data.Timed ∧ data.toRow s.id = s

theorem timed_run {names : TableNames} {operations : List Operation}
    (timed : ∀ o ∈ operations, ∀ data ∈ o.session?, data.Timed) : ((empty names).run operations).Timed := by
  intro s hs
  obtain ⟨o, ho, opened⟩ := exists_opened_of_mem_run hs
  obtain ⟨data, asked, same⟩ := opened.session?
  exact ⟨data, timed o ho data asked, same⟩

/-! ## The session as a row and as a record -/

theorem Timed.toSession (timed : db.Timed) {s : SessionRow} (hs : s ∈ db.sessions.rows) :
    ∃ session, s.toSession = .ok session := by
  obtain ⟨data, ⟨created, expired⟩, same⟩ := timed s hs
  rw [← same, toSession_toRow s.id created expired]
  exact ⟨_, rfl⟩

/-- The text of a row and the instant of its record give the same answer, to the microsecond. -/
theorem Timed.validAt_iff (timed : db.Timed) (dated : now.Dated) (proper : now.Proper) {s : SessionRow}
    (hs : s ∈ db.sessions.rows) {session : Session} (read : s.toSession = .ok session) :
    s.validAt now = true ↔ session.validAt now.toMicros = true := by
  obtain ⟨data, ⟨created, expired⟩, same⟩ := timed s hs
  rw [← same, toSession_toRow s.id created expired] at read
  cases read
  rw [← same, validAt_toRow_iff s.id dated proper expired.2, and_iff_right expired.1, Session.validAt,
    decide_eq_true_iff]
  rfl

theorem validSession_of_none (h : db.Ready)
    (nothing : ∀ s ∈ db.sessions.rows, s.token = token → ¬ s.validAt now = true) :
    validSession now token db = .ok none := by
  have none_found : db.sessions.find? (fun s => s.token = token && s.validAt now) = none := by
    rw [Table.find?_eq_none]
    intro s hs
    rw [← Bool.not_eq_true, Bool.and_eq_true, decide_eq_true_eq]
    exact fun chosen => nothing s hs chosen.1 chosen.2
  simp only [validSession, h.requireOpen, h.require, ok_bind]
  rw [none_found]
  rfl

/-- What is found for a token is the record of a row of that token, which is valid. -/
theorem row_of_validSession {session : Session} (found : validSession now token db = .ok (some session)) :
    ∃ s ∈ db.sessions.rows, s.token = token ∧ s.validAt now = true ∧ s.toSession = .ok session := by
  rw [validSession] at found
  obtain ⟨_, _, found⟩ := exists_of_bind_eq_ok found
  obtain ⟨_, _, found⟩ := exists_of_bind_eq_ok found
  obtain ⟨s, hs, chosen, read⟩ := exists_of_find?_mapM found
  rw [Bool.and_eq_true, decide_eq_true_eq] at chosen
  exact ⟨s, hs, chosen.1, chosen.2, read⟩

theorem ownerId_of_toSession {s : SessionRow} {session : Session} (read : s.toSession = .ok session) :
    session.ownerId = ⟨s.ownerId⟩ := by
  rw [SessionRow.toSession] at read
  obtain ⟨_, _, read⟩ := exists_of_bind_eq_ok read
  obtain ⟨_, _, read⟩ := exists_of_bind_eq_ok read
  cases read
  rfl

/-! ## The user in one query and in two -/

/-- The valid session of a token first, and then the user of its owner number. -/
def userOfSession (now : Instant) (token : String) : Query (Option User) := fun db => do
  match ← validSession now token db with
  | none => return none
  | some session => userById session.ownerId db

theorem Sound.userOfSession_of_bears (h : db.Sound) (timed : db.Timed) {r : UserRow}
    (bears : db.Bears now token r) : userOfSession now token db = r.toUser.map some := by
  obtain ⟨s, hs, rfl, valid, owner⟩ := bears.session
  obtain ⟨session, read⟩ := timed.toSession hs
  have found : validSession now s.token db = .ok (some session) := by
    rw [h.validSession_eq hs valid, read]
    rfl
  simp only [userOfSession, found, ok_bind, ownerId_of_toSession read, owner]
  exact (h.lookups_agree bears.mem bears.undeleted).1

theorem Sound.userOfSession_of_nobody (h : db.Sound) (timed : db.Timed)
    (nobody : ∀ r, ¬ db.Bears now token r) : userOfSession now token db = .ok none := by
  by_cases valid : ∃ s ∈ db.sessions.rows, s.token = token ∧ s.validAt now = true
  · obtain ⟨s, hs, rfl, valid⟩ := valid
    obtain ⟨session, read⟩ := timed.toSession hs
    have found : validSession now s.token db = .ok (some session) := by
      rw [h.validSession_eq hs valid, read]
      rfl
    -- the owner of that session has been deleted
    have nobody_left : db.users.find? (fun r => r.id = s.ownerId && !r.isDeleted) = none := by
      rw [Table.find?_eq_none]
      intro r hr
      rw [← Bool.not_eq_true, Bool.and_eq_true, decide_eq_true_eq, Bool.not_eq_true']
      exact fun ⟨owner, undeleted⟩ => nobody r ⟨hr, undeleted, s, hs, rfl, valid, owner.symm⟩
    simp only [userOfSession, found, ok_bind, ownerId_of_toSession read, userById]
    rw [userWhere_eq h.ready, nobody_left]
    rfl
  · have nothing : validSession now token db = .ok none := by
      apply validSession_of_none h.ready
      exact fun s hs named valid' => valid ⟨s, hs, named, valid'⟩
    simp only [userOfSession, nothing, ok_bind]
    rfl

/-! ## The user by instants -/

/-- A user who is not deleted has a session of the token that expires now or later, to the microsecond. -/
structure Holds (db : Database) (now : Instant) (token : String) (r : UserRow) : Prop where
  mem : r ∈ db.users.rows
  undeleted : r.isDeleted = false
  session : ∃ (data : NewSession) (k : Int), data.Timed ∧ data.toRow k ∈ db.sessions.rows ∧ data.token = token ∧
    now.toMicros ≤ data.expiredAt.toMicros ∧ data.ownerId = ⟨r.id⟩

theorem Timed.bears_iff_holds (timed : db.Timed) (dated : now.Dated) (proper : now.Proper) {r : UserRow} :
    db.Bears now token r ↔ db.Holds now token r := by
  constructor
  · intro bears
    obtain ⟨s, hs, named, valid, owner⟩ := bears.session
    obtain ⟨data, timed', same⟩ := timed s hs
    rw [← same] at named valid owner hs
    have unexpired := ((validAt_toRow_iff s.id dated proper timed'.expired.2).mp valid).2
    exact ⟨bears.mem, bears.undeleted, data, s.id, timed', hs, named, unexpired, UserId.ext owner⟩
  · intro holds
    obtain ⟨data, k, timed', stored, named, unexpired, owner⟩ := holds.session
    have valid := (validAt_toRow_iff k dated proper timed'.expired.2).mpr ⟨timed'.expired.1, unexpired⟩
    exact ⟨holds.mem, holds.undeleted, data.toRow k, stored, named, valid, congrArg UserId.number owner⟩

/--
The user of a token, asked for at once or by way of the session, is the one whose session of that token has not
expired, and nobody where there is none or its owner is deleted; only a row of the owner that cannot be read keeps
it from being answered. Every session found passes the check on records at the instant cut to the microsecond,
and every session that passes it is found.
-/
theorem validity_agrees (reached : db.Reachable) (timed : db.Timed) (dated : now.Dated) (proper : now.Proper)
    (token : String) :
    userBySession now token db = userOfSession now token db ∧
    (∀ user, userBySession now token db = .ok (some user) ↔
      ∃ r, db.Holds now token r ∧ r.toUser = .ok user) ∧
    (userBySession now token db = .ok none ↔ ¬ ∃ r, db.Holds now token r) ∧
    (∀ r, db.Holds now token r → r.Legible →
      ∃ user, userBySession now token db = .ok (some user) ∧ r.ReadAs user) ∧
    (∀ session, validSession now token db = .ok (some session) → session.validAt now.toMicros = true) ∧
    ∀ s ∈ db.sessions.rows, ∀ session, s.toSession = .ok session → session.validAt now = true →
      validSession now s.token db = .ok (some session) := by
  have sound := reached.sound
  have holds_iff {r : UserRow} : db.Bears now token r ↔ db.Holds now token r := timed.bears_iff_holds dated proper
  have answer {r : UserRow} (holds : db.Holds now token r) : userBySession now token db = r.toUser.map some :=
    sound.userBySession_eq (holds_iff.mpr holds)
  refine ⟨?_, ?_, ?_, ?_, ?_, ?_⟩
  · by_cases somebody : ∃ r, db.Bears now token r
    · obtain ⟨r, bears⟩ := somebody
      rw [sound.userBySession_eq bears, sound.userOfSession_of_bears timed bears]
    · rw [not_exists] at somebody
      rw [userBySession_of_nobody sound.ready somebody, sound.userOfSession_of_nobody timed somebody]
  · intro user
    constructor
    · intro found
      obtain ⟨r, bears, read⟩ := bears_of_userBySession found
      exact ⟨r, holds_iff.mp bears, read⟩
    · rintro ⟨r, holds, read⟩
      rw [answer holds, read]
      rfl
  · constructor
    · rintro nobody ⟨r, holds⟩
      rw [answer holds] at nobody
      cases read : r.toUser <;> simp [read, Except.map] at nobody
    · intro none_holds
      exact userBySession_of_nobody sound.ready fun r bears => none_holds ⟨r, holds_iff.mp bears⟩
  · intro r holds legible
    obtain ⟨user, read⟩ := legible.toUser
    refine ⟨user, ?_, UserRow.readAs_of_toUser read⟩
    rw [answer holds, read]
    rfl
  · intro session found
    obtain ⟨s, hs, _, valid, read⟩ := row_of_validSession found
    exact (timed.validAt_iff dated proper hs read).mp valid
  · intro s hs session read unexpired
    have cut : session.validAt now.toMicros = true := by
      rw [Session.validAt, decide_eq_true_iff] at unexpired ⊢
      exact Instant.toMicros_le_of_le unexpired
    rw [sound.validSession_eq hs ((timed.validAt_iff dated proper hs read).mpr cut), read]
    rfl

/-- Within the microsecond of its expiry a session is found that the check at the uncut instant calls expired. -/
theorem validity_agrees_within_microsecond :
    let data : NewSession := { adaSession with expiredAt := ⟨2592000, 500⟩ }
    let db := (empty {}).run [.commitRegistration .epoch ada "ada", .createSession data]
    let now : Instant := ⟨2592000, 999⟩
    db.Reachable ∧ db.Timed ∧
      (∃ user, userBySession now "token" db = .ok (some user) ∧ userOfSession now "token" db = .ok (some user)) ∧
      ∃ session, validSession now "token" db = .ok (some session) ∧ session.validAt now = false ∧
        session.validAt now.toMicros = true := by
  intro data db now
  have reached : db.Reachable := (Reachable.empty {}).run _
  have data_timed : data.Timed := ⟨⟨by decide, by decide, by decide⟩, by decide, by decide, by decide⟩
  have timed : db.Timed := by
    apply timed_run
    intro o ho data' asked
    rcases List.mem_pair.mp ho with rfl | rfl <;> cases asked
    exact data_timed
  have legible : db.Legible := (legible_empty {}).run (by decide)
  have dated : now.Dated := by decide
  have stored : data.toRow 1 ∈ db.sessions.rows := by decide +kernel
  obtain ⟨r, hr, alive, number⟩ : ∃ r ∈ db.users.rows, r.isDeleted = false ∧ r.id = 1 := by decide +kernel
  have owner : data.ownerId = ⟨r.id⟩ := by
    rw [number]
    rfl
  have holds : db.Holds now "token" r := ⟨hr, alive, data, 1, data_timed, stored, rfl, by decide, owner⟩
  have found : validSession now "token" db = .ok (some (data.toMicros.toSession 1)) :=
    eq_ok_of_toOption (by decide +kernel)
  obtain ⟨same, _, _, answers, checked, _⟩ :=
    validity_agrees reached timed dated ⟨by decide, by decide⟩ "token"
  obtain ⟨user, answered, _⟩ := answers r holds (legible r hr)
  exact ⟨reached, timed, ⟨user, answered, same ▸ answered⟩, _, found, by decide, checked _ found⟩

end Database

end Store

end Gatehouse
