import Gatehouse.Proofs.Store.History
import Gatehouse.Proofs.Time.Order

/-! # Whom a token leads to

A token leads to the user of its session as long as the session has not expired and the user is not
deleted. Over a whole run this comes down to what never happens: no session is changed, no token is given
twice, no number is given to a second user, and nobody's deletion is undone. The expiry is compared as text,
and where its year has a sign the session is taken for expired.
-/

namespace Gatehouse.Store

open Gatehouse.Time

namespace Database

variable {db : Database} {now : Instant} {token : String}

/-- A user who is not deleted has a session of the token that has not expired. -/
structure Bears (db : Database) (now : Instant) (token : String) (r : UserRow) : Prop where
  mem : r ∈ db.users.rows
  undeleted : r.isDeleted = false
  session : ∃ s ∈ db.sessions.rows, s.token = token ∧ s.validAt now = true ∧ s.ownerId = r.id

/-- The first row to bear a token, whether it can be read or not. In a sound store no other bears it. -/
def bearer? (db : Database) (now : Instant) (token : String) : Option UserRow :=
  db.users.find? fun r =>
    ((db.sessions.filter fun s => s.token = token && s.validAt now).map (·.ownerId)).contains r.id && !r.isDeleted

/-- Tokens can be looked up: the store is open and has its users and its sessions. -/
structure LooksUp (db : Database) : Prop where
  opened : db.isClosed = false
  users : Relation.users ∉ db.missing
  sessions : Relation.sessions ∉ db.missing

theorem Ready.looksUp (h : db.Ready) : db.LooksUp := by
  obtain ⟨opened, all_there⟩ := h
  refine ⟨opened, ?_, ?_⟩ <;> simp [all_there]

/-- Whether a row is one of those that a token is looked up among. -/
private theorem bears_iff {r : UserRow} (hr : r ∈ db.users.rows) :
    (((db.sessions.filter fun s => s.token = token && s.validAt now).map (·.ownerId)).contains r.id &&
      !r.isDeleted) = true ↔ db.Bears now token r := by
  simp only [Bool.and_eq_true, List.contains_iff_mem, List.mem_map, Table.filter, List.mem_filter,
    decide_eq_true_eq, Bool.not_eq_true']
  constructor
  · rintro ⟨⟨s, ⟨hs, ht, hv⟩, ho⟩, hd⟩
    exact ⟨hr, hd, s, hs, ht, hv, ho⟩
  · rintro ⟨_, hd, s, hs, ht, hv, ho⟩
    exact ⟨⟨s, ⟨hs, ht, hv⟩, ho⟩, hd⟩

theorem bears_of_bearer? {r : UserRow} (found : db.bearer? now token = some r) : db.Bears now token r := by
  rw [bearer?] at found
  have chosen := List.find?_some found
  exact (bears_iff (List.mem_of_find?_eq_some found)).mp chosen

theorem bearer?_eq_none (nobody : ∀ r, ¬ db.Bears now token r) : db.bearer? now token = none := by
  cases found : db.bearer? now token with
  | none => rfl
  | some r => exact absurd (bears_of_bearer? found) (nobody r)

/-- Whatever the store, a token leads to nobody but a user who bears it. -/
theorem bears_of_userBySession {user : User} (found : userBySession now token db = .ok (some user)) :
    ∃ r, db.Bears now token r ∧ r.toUser = .ok user := by
  rw [userBySession] at found
  obtain ⟨_, _, found⟩ := exists_of_bind_eq_ok found
  obtain ⟨_, _, found⟩ := exists_of_bind_eq_ok found
  obtain ⟨_, _, found⟩ := exists_of_bind_eq_ok found
  obtain ⟨r, hr, hp, read⟩ := exists_of_find?_mapM found
  exact ⟨r, (bears_iff hr).mp hp, read⟩

theorem LooksUp.userBySession (h : db.LooksUp) (now : Instant) (token : String) :
    userBySession now token db = (db.bearer? now token).mapM UserRow.toUser := by
  simp only [Database.userBySession, requireOpen, require, h.opened, h.users, h.sessions]
  rfl

theorem userBySession_of_not_looksUp (h : ¬ db.LooksUp) (now : Instant) (token : String) :
    ∃ e, userBySession now token db = .error e := by
  cases answered : userBySession now token db with
  | error e => exact ⟨e, rfl⟩
  | ok found =>
      rw [userBySession] at answered
      obtain ⟨_, opened, answered⟩ := exists_of_bind_eq_ok answered
      obtain ⟨_, users, answered⟩ := exists_of_bind_eq_ok answered
      obtain ⟨_, sessions, _⟩ := exists_of_bind_eq_ok answered
      refine absurd ⟨?_, ?_, ?_⟩ h
      · simpa [requireOpen] using opened
      · simpa [require] using users
      · simpa [require] using sessions

/-- A store that answers says so when nobody bears a token. -/
theorem userBySession_of_nobody (h : db.Ready) (nobody : ∀ r, ¬ db.Bears now token r) :
    userBySession now token db = .ok none := by
  rw [h.looksUp.userBySession, bearer?_eq_none nobody]
  rfl

/-! ## One session of a token, one user of a number -/

theorem Sound.bears_unique (h : db.Sound) {r r' : UserRow} (bears : db.Bears now token r)
    (bears' : db.Bears now token r') : r' = r := by
  obtain ⟨s, hs, named, _, owner⟩ := bears.session
  obtain ⟨s', hs', named', _, owner'⟩ := bears'.session
  have same : s' = s := h.tokens s' hs' s hs trivial trivial (named'.trans named.symm)
  rw [same, owner] at owner'
  exact h.users_ordered.eq_of_key_eq bears'.mem bears.mem owner'.symm

theorem Sound.bearer?_eq (h : db.Sound) {r : UserRow} (bears : db.Bears now token r) :
    db.bearer? now token = some r := by
  apply Table.find?_eq_some_of_unique bears.mem ((bears_iff bears.mem).mpr bears)
  intro s hs chosen
  exact h.bears_unique bears ((bears_iff hs).mp chosen)

/-- In a sound store a token leads to the one user who bears it. -/
theorem Sound.userBySession_eq (h : db.Sound) {r : UserRow} (bears : db.Bears now token r) :
    userBySession now token db = r.toUser.map some := by
  rw [h.ready.looksUp.userBySession, h.bearer?_eq bears, Option.mapM_some]
  cases r.toUser <;> rfl

/-- A token of a stored session leads to the owner of that session, and only while it has not expired. -/
theorem Sound.owner_of_bears (h : db.Sound) {data : NewSession} {k : Int}
    (stored : data.toRow k ∈ db.sessions.rows) {r : UserRow} (bears : db.Bears now data.token r) :
    data.ownerId = ⟨r.id⟩ ∧ (data.toRow k).validAt now = true := by
  obtain ⟨s, hs, token, valid, owner⟩ := bears.session
  have same : s = data.toRow k := h.tokens s hs _ stored trivial trivial token
  rw [same] at valid owner
  exact ⟨UserId.ext owner, valid⟩

/-- As long as it is valid and the owner is not deleted, it leads to the owner. -/
theorem Sound.userBySession_of_valid (h : db.Sound) {data : NewSession} {k : Int}
    (stored : data.toRow k ∈ db.sessions.rows) (valid : (data.toRow k).validAt now = true) {r : UserRow}
    (hr : r ∈ db.users.rows) (owner : data.ownerId = ⟨r.id⟩) (undeleted : r.isDeleted = false)
    (legible : r.Legible) : ∃ user, userBySession now data.token db = .ok (some user) ∧ r.ReadAs user := by
  have bears : db.Bears now data.token r :=
    ⟨hr, undeleted, data.toRow k, stored, rfl, valid, by rw [NewSession.toRow, owner]⟩
  obtain ⟨user, read⟩ := legible.toUser
  refine ⟨user, ?_, UserRow.readAs_of_toUser read⟩
  rw [h.userBySession_eq bears, read]
  rfl

theorem Sound.userBySession_of_invalid (h : db.Sound) {data : NewSession} {k : Int}
    (stored : data.toRow k ∈ db.sessions.rows) (invalid : ¬ (data.toRow k).validAt now = true) :
    userBySession now data.token db = .ok none := by
  apply userBySession_of_nobody h.ready
  intro r bears
  exact invalid (h.owner_of_bears stored bears).2

/-- A deletion is noted in the row of the user, unless one has been noted before. -/
theorem isDeleted_after_softDelete (h : db.Ready) (gone : Instant) {id : UserId}
    (there : ∃ u ∈ db.users.rows, u.id = id.number) :
    ∃ u ∈ ((Operation.softDelete gone id).after db).users.rows, u.id = id.number ∧ u.isDeleted = true := by
  obtain ⟨r, hr, hid⟩ := there
  have made : (Operation.softDelete gone id).after db = db.withDeleted gone id := by
    have changed := (softDelete_eq h gone id).trans (updateUsers_eq h _ _)
    rw [Operation.after, Change.after, Change.commit_of_ok changed]
    rfl
  rw [made]
  refine ⟨_, Table.mem_modify.mpr ⟨r, hr, rfl⟩, ?_⟩
  by_cases lives : r.lives id = true
  · rw [if_pos lives]
    exact ⟨hid, rfl⟩
  · rw [if_neg lives]
    refine ⟨hid, ?_⟩
    simpa [UserRow.lives, hid] using lives

/-- Who is deleted stays so, whatever follows, and bears no token. -/
theorem not_bears_of_deleted {later : List Operation} (h : (db.run later).Sound) {u r : UserRow}
    (hu : u ∈ db.users.rows) (gone : u.isDeleted = true) (hid : u.id = r.id) :
    ¬ (db.run later).Bears now token r := by
  intro bears
  obtain ⟨u', hu', became⟩ := (run_users_grow db later).mem hu
  have same : u' = r := h.users_ordered.eq_of_key_eq hu' bears.mem (became.id.trans hid)
  have undeleted := bears.undeleted
  rw [← same, became.isDeleted gone] at undeleted
  cases undeleted

/-- Once the owner of a session is deleted its token leads to nobody. -/
theorem userBySession_of_deleted {later : List Operation} (h : (db.run later).Sound) {data : NewSession} {k : Int}
    (stored : data.toRow k ∈ (db.run later).sessions.rows) {u : UserRow} (hu : u ∈ db.users.rows)
    (owner : data.ownerId = ⟨u.id⟩) (gone : u.isDeleted = true) :
    userBySession now data.token (db.run later) = .ok none := by
  apply userBySession_of_nobody h.ready
  intro r bears
  have owner' := (h.owner_of_bears stored bears).1
  exact not_bears_of_deleted h hu gone (congrArg UserId.number (owner.symm.trans owner')) bears

/-- Every session that is stored has been opened by an operation with the data of a new session. -/
theorem exists_opened_of_mem_run {names : TableNames} {operations : List Operation} {s : SessionRow}
    (hs : s ∈ ((empty names).run operations).sessions.rows) : ∃ o ∈ operations, o.Opens s := by
  rcases (run_sessions_grow (empty names) operations).mem_back hs with ⟨_, none_there, _⟩ | opened
  · cases none_there
  · exact opened

/-- A session is valid up to its expiry, to the microsecond, if that has four digits for its year. -/
theorem validAt_toRow_iff {data : NewSession} (k : Int) (dated : now.Dated) (proper : now.Proper)
    (proper' : data.expiredAt.Proper) : (data.toRow k).validAt now = true ↔
      data.expiredAt.Dated ∧ now.toMicros ≤ data.expiredAt.toMicros := by
  rw [SessionRow.validAt, NewSession.toRow, decide_eq_true_iff]
  by_cases dated' : data.expiredAt.Dated
  · rw [Rfc3339.storedText_le_iff dated dated' proper proper']
    exact (and_iff_right dated').symm
  · have less : Rfc3339.storedText data.expiredAt < Rfc3339.storedText now :=
      Rfc3339.storedText_lt_of_not_dated dated' dated
    constructor
    · intro le
      exact absurd less (String.not_lt.mpr le)
    · intro h
      exact absurd h.1 dated'

/-! ## Whole runs -/

/--
Once a session has been stored, its token leads to its owner or to nobody, whatever follows. It leads to
nobody when the expiry is earlier than now, be its year one of four digits or not, and it leads to nobody
from the deletion of the owner on, whoever has taken name, address or namespace since. On clocks that show
four digits of the year the question is always answered.
-/
theorem userBySession_run (names : TableNames) (earlier later : List Operation) {data : NewSession} {k : Int}
    (stored : data.toRow k ∈ ((empty names).run earlier).sessions.rows) (now : Instant) :
    let found := userBySession now data.token ((empty names).run (earlier ++ later))
    (∀ user, found = .ok (some user) → user.id = data.ownerId) ∧
    ((∀ o ∈ earlier ++ later, o.Dated) →
      found = .ok none ∨ ∃ user, found = .ok (some user) ∧ user.id = data.ownerId) ∧
    (now.Dated → now.Proper → data.expiredAt.Proper →
      ¬ now.toMicros ≤ data.expiredAt.toMicros → found = .ok none) ∧
    ∀ before gone after, earlier ++ later = before ++ .softDelete gone data.ownerId :: after →
      (∃ u ∈ ((empty names).run before).users.rows, u.id = data.ownerId.number) → found = .ok none := by
  intro found
  have sound : ((empty names).run (earlier ++ later)).Sound :=
    ((Reachable.empty names).run (earlier ++ later)).sound
  have stays : data.toRow k ∈ ((empty names).run (earlier ++ later)).sessions.rows := by
    obtain ⟨s, hs, rfl⟩ := (run_sessions_grow ((empty names).run earlier) later).mem stored
    rw [run_append]
    exact hs
  have owner : ∀ user, found = .ok (some user) → user.id = data.ownerId := by
    intro user hfound
    obtain ⟨r, bears, read⟩ := bears_of_userBySession hfound
    rw [(sound.owner_of_bears stays bears).1]
    exact (UserRow.readAs_of_toUser read).id
  refine ⟨owner, ?_, ?_, ?_⟩
  · intro dated
    have legible : ((empty names).run (earlier ++ later)).Legible := (legible_empty names).run dated
    obtain ⟨user?, answered⟩ := legible.userBySession sound.ready now data.token
    cases user? with
    | none => exact Or.inl answered
    | some user => exact Or.inr ⟨user, answered, owner user answered⟩
  · intro dated proper proper' expired
    apply sound.userBySession_of_invalid stays
    intro valid
    exact expired ((validAt_toRow_iff k dated proper proper').mp valid).2
  · intro before gone after parts there
    apply userBySession_of_nobody sound.ready
    intro r bears
    have owner_eq := (sound.owner_of_bears stays bears).1
    have ready : ((empty names).run before).Ready := ((Reachable.empty names).run before).sound.ready
    -- the row of the owner is deleted at that moment, and it is deleted ever after
    obtain ⟨u, hu, hid, deleted⟩ := isDeleted_after_softDelete ready gone there
    rw [parts, run_append, run_cons] at sound bears
    exact not_bears_of_deleted sound hu deleted (by rw [hid, owner_eq]) bears

/-- The session of Ada, which lasts thirty days. -/
def adaSession : NewSession :=
  ⟨⟨1⟩, "token", "::1", .epoch, ⟨2592000, 0⟩⟩

/-- Ada has registered and logged in. -/
def adaLoggedIn : List Operation :=
  [.commitRegistration .epoch ada "ada", .createSession adaSession]

/-- Ada is deleted and registers again, under her name, her address and her path. -/
def adaComesBack : List Operation :=
  [.softDelete .epoch ⟨1⟩, .commitRegistration .epoch ada "ada"]

/-- Her token led to her; after a month, or once her new account has her namespace, it leads to nobody. -/
theorem userBySession_run_adaComesBack :
    adaSession.toRow 1 ∈ ((empty {}).run adaLoggedIn).sessions.rows ∧
      (∃ user, userBySession .epoch "token" ((empty {}).run adaLoggedIn) = .ok (some user) ∧ user.id = ⟨1⟩) ∧
      userBySession ⟨2592001, 0⟩ "token" ((empty {}).run (adaLoggedIn ++ [])) = .ok none ∧
      (∃ u ∈ ((empty {}).run (adaLoggedIn ++ adaComesBack)).users.rows,
        u.id = 2 ∧ u.isDeleted = false ∧ u.username = "ada" ∧ u.namespaceId = some 1) ∧
      userBySession .epoch "token" ((empty {}).run (adaLoggedIn ++ adaComesBack)) = .ok none := by
  have stored : adaSession.toRow 1 ∈ ((empty {}).run adaLoggedIn).sessions.rows := by decide +kernel
  have back : ∃ u ∈ ((empty {}).run (adaLoggedIn ++ adaComesBack)).users.rows,
      u.id = 2 ∧ u.isDeleted = false ∧ u.username = "ada" ∧ u.namespaceId = some 1 := by decide +kernel
  have there : ∃ u ∈ ((empty {}).run adaLoggedIn).users.rows, u.id = adaSession.ownerId.number := by
    decide +kernel
  have dated : ∀ o ∈ adaLoggedIn ++ [], o.Dated := by decide +kernel
  have somebody : userBySession .epoch "token" ((empty {}).run (adaLoggedIn ++ [])) ≠ .ok none := by
    intro nobody
    have read : (userBySession .epoch "token" ((empty {}).run (adaLoggedIn ++ []))).toOption.join = none := by
      rw [nobody]
      rfl
    revert read
    decide +kernel
  obtain ⟨_, answered, _, _⟩ := userBySession_run {} adaLoggedIn [] stored .epoch
  obtain ⟨_, _, expired, _⟩ := userBySession_run {} adaLoggedIn [] stored ⟨2592001, 0⟩
  obtain ⟨_, _, _, gone⟩ := userBySession_run {} adaLoggedIn adaComesBack stored .epoch
  refine ⟨stored, (answered dated).resolve_left somebody, ?_, back, ?_⟩
  · exact expired (by decide +kernel) ⟨by decide, by decide⟩ ⟨by decide, by decide⟩ (by decide +kernel)
  · exact gone adaLoggedIn .epoch [.commitRegistration .epoch ada "ada"] rfl there

end Database

end Gatehouse.Store
