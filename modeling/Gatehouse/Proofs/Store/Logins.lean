import Gatehouse.Proofs.Store.Tokens
import Gatehouse.Proofs.Time.ReadBack

/-! # Logins as one change

The store asks three things of a login, in this order: that the user has a row, that no session has the token,
and that the owner of the session has a row. The first that fails is what the login is refused for, and though
the last two are found out when the user has already been noted, a refusal leaves nothing of that. Whether the
user is deleted is not asked.
-/

namespace Gatehouse

open Gatehouse.Store Gatehouse.Time

/-- The data of a session with its instants cut to the microsecond. -/
def NewSession.toMicros (data : NewSession) : NewSession :=
  { data with createdAt := data.createdAt.toMicros, expiredAt := data.expiredAt.toMicros }

theorem NewSession.toRow_toMicros (data : NewSession) (k : Int) : data.toMicros.toRow k = data.toRow k := by
  simp only [toRow, toMicros, Rfc3339.storedText_toMicros]

namespace Store

/-- A session is read back as it was given, cut to the microsecond. -/
theorem toSession_toRow {data : NewSession} (k : Int)
    (created : data.createdAt.Dated ∧ data.createdAt.Proper)
    (expired : data.expiredAt.Dated ∧ data.expiredAt.Proper) :
    (data.toRow k).toSession = .ok (data.toMicros.toSession k) := by
  have created_back := Rfc3339.read_storedText_eq created.1 created.2
  have expired_back := Rfc3339.read_storedText_eq expired.1 expired.2
  simp only [SessionRow.toSession, NewSession.toRow, instantOf, created_back, expired_back, ok_bind]
  rfl

namespace Database

variable {db : Database} {now : Instant} {id : UserId} {clientIp : String} {data : NewSession}

theorem Sound.validSession_eq (h : db.Sound) {s : SessionRow} (hs : s ∈ db.sessions.rows)
    (valid : s.validAt now = true) : validSession now s.token db = s.toSession.map some := by
  have found : db.sessions.find? (fun r => r.token = s.token && r.validAt now) = some s := by
    apply Table.find?_eq_some_of_unique hs
    · rw [valid, Bool.and_true]
      exact decide_eq_true rfl
    · intro r hr chosen
      rw [Bool.and_eq_true, decide_eq_true_eq] at chosen
      exact h.tokens r hr s hs trivial trivial chosen.1
  simp only [validSession, h.ready.requireOpen, h.ready.require, ok_bind]
  rw [found, Option.mapM_some]
  cases s.toSession <;> rfl

/-- A login has been made: one session more, two columns of one user, and nothing else. -/
structure LogsIn (db : Database) (now : Instant) (id : UserId) (clientIp : String) (data : NewSession)
    (db' : Database) (result : LoginResult) : Prop where
  store : ∃ earlier u later, db.users.rows = earlier ++ u :: later ∧ u.id = id.number ∧ db' = { db with
    users := ⟨earlier ++ u.loggedIn now clientIp :: later, db.users.lastKey⟩
    sessions := ⟨db.sessions.rows ++ [data.toMicros.toRow db.sessions.nextKey], db.sessions.nextKey⟩ }
  /-- Until it expires the session is found by its token and can be read, unless for a year that cannot. -/
  found : data.createdAt.Dated ∧ data.createdAt.Proper → data.expiredAt.Dated ∧ data.expiredAt.Proper →
    ∀ t : Instant, t.Dated → t.Proper → t ≤ data.expiredAt →
      validSession t data.token db' = .ok (some (data.toMicros.toSession db.sessions.nextKey))
  session : result.session = data.toSession db.sessions.nextKey
  home : namespaceByOwner id.number .user db' = .ok result.home

theorem logsIn_withLogin (h : db.Sound) {u : UserRow} (hu : u ∈ db.users.rows) (hid : u.id = id.number)
    (sound : (db.withLogin now id clientIp data).Sound) :
    db.LogsIn now id clientIp data (db.withLogin now id clientIp data)
      ⟨data.toSession db.sessions.nextKey, (db.namespaces.find? fun r => r.ownedBy id.number .user).map
        fun r => ⟨⟨r.id⟩, id.number, .user, r.path⟩⟩ where
  store := by
    obtain ⟨earlier, later, rows_eq, noted⟩ := h.modifyUser_eq hu (UserRow.loggedIn now clientIp)
    refine ⟨earlier, u, later, rows_eq, hid, ?_⟩
    rw [withLogin, ← hid, noted, NewSession.toRow_toMicros]
    rfl
  found := by
    intro created expired t dated proper lasts
    have stored : data.toRow db.sessions.nextKey ∈ (db.withLogin now id clientIp data).sessions.rows := by
      rw [withLogin, Table.append_rows]
      exact List.mem_append_right _ (List.mem_singleton_self _)
    have valid := (validAt_toRow_iff db.sessions.nextKey dated proper expired.2).mpr
      ⟨expired.1, Instant.toMicros_le_toMicros lasts⟩
    have asked := sound.validSession_eq stored valid
    rw [toSession_toRow db.sessions.nextKey created expired] at asked
    exact asked
  session := rfl
  home := by
    rw [namespaceByOwner, sound.ready.requireOpen, ok_bind, namespaceOwnedBy_eq sound.ready]
    rfl

/--
A login of a user without a row is not made, whatever else would be wrong with it. After that a token in use is
a conflict, and after that an owner without a row breaks a reference. A refusal leaves the store as it was,
numbers included. In every other case the login is made.
-/
theorem commitLogin_outcome (reached : db.Reachable) (now : Instant) (id : UserId) (clientIp : String)
    (data : NewSession) :
    let outcome := (commitLogin now id clientIp data).commit db
    let refused (e : Error) (kind : ErrorKind) : Prop := outcome = (.error e, db) ∧ e.kind = kind
    let known (k : UserId) : Prop := ∃ u ∈ db.users.rows, u.id = k.number
    let used : Prop := ∃ s ∈ db.sessions.rows, s.token = data.token
    (¬ known id → refused (.noUser id) .notFound) ∧
    (known id → used → refused .tokenTaken .conflict) ∧
    (known id → ¬ used → ¬ known data.ownerId → refused .danglingOwner .sql) ∧
    (known id → ¬ used → known data.ownerId → ∃ result,
      outcome.1 = .ok result ∧ db.LogsIn now id clientIp data outcome.2 result) := by
  intro outcome refused known used
  have h := reached.sound
  have made := commitLogin_eq h.ready now id clientIp data
  have known_iff : ∀ k, db.users.any (fun r => r.id = k.number) = true ↔ known k := by
    intro k
    simp [known]
  have used_iff : db.sessions.any (fun r => r.token = data.token) = true ↔ used := by
    simp [used]
  simp only [known_iff, used_iff] at made
  refine ⟨?_, ?_, ?_, ?_⟩
  · intro nobody
    rw [if_neg nobody] at made
    exact ⟨Change.commit_of_error made, rfl⟩
  · intro there taken
    rw [if_pos there, if_pos taken] at made
    exact ⟨Change.commit_of_error made, rfl⟩
  · intro there free dangling
    rw [if_pos there, if_neg free, if_neg dangling] at made
    exact ⟨Change.commit_of_error made, rfl⟩
  · intro there free owned
    rw [if_pos there, if_neg free, if_pos owned] at made
    have committed : outcome = _ := Change.commit_of_ok made
    have sound := h.after_commitLogin now id clientIp data
    rw [Change.after, Change.commit_of_ok made] at sound
    obtain ⟨u, hu, hid⟩ := there
    rw [committed]
    exact ⟨_, rfl, logsIn_withLogin h hu hid sound⟩

/-- A session of thirty days. -/
def visit (owner : Int) (token : String) : NewSession :=
  ⟨⟨owner⟩, token, "::2", .epoch, ⟨2592000, 0⟩⟩

/-- Ada has come back: her old account is deleted, but it may log in, even for a session of the new one. -/
theorem commitLogin_outcome_adaComesBack :
    let db := (empty {}).run (adaLoggedIn ++ adaComesBack)
    let login (id owner : Int) (token : String) :=
      (commitLogin .epoch ⟨id⟩ "::2" (visit owner token)).commit db
    db.Reachable ∧
      login 3 3 "token" = (.error (.noUser ⟨3⟩), db) ∧
      login 1 3 "token" = (.error .tokenTaken, db) ∧
      login 1 3 "other" = (.error .danglingOwner, db) ∧
      ∃ result, (login 1 2 "other").1 = .ok result ∧
        db.LogsIn .epoch ⟨1⟩ "::2" (visit 2 "other") (login 1 2 "other").2 result := by
  intro db login
  have reached : db.Reachable := (Reachable.empty {}).run _
  have first : ∃ u ∈ db.users.rows, u.id = (1 : Int) := by decide +kernel
  have second : ∃ u ∈ db.users.rows, u.id = (2 : Int) := by decide +kernel
  have nobody : ¬ ∃ u ∈ db.users.rows, u.id = (3 : Int) := by decide +kernel
  have taken : ∃ s ∈ db.sessions.rows, s.token = "token" := by decide +kernel
  have free : ¬ ∃ s ∈ db.sessions.rows, s.token = "other" := by decide +kernel
  refine ⟨reached, ?_, ?_, ?_, ?_⟩
  · exact ((commitLogin_outcome reached .epoch ⟨3⟩ "::2" (visit 3 "token")).1 nobody).1
  · exact ((commitLogin_outcome reached .epoch ⟨1⟩ "::2" (visit 3 "token")).2.1 first taken).1
  · exact ((commitLogin_outcome reached .epoch ⟨1⟩ "::2" (visit 3 "other")).2.2.1 first free nobody).1
  · exact (commitLogin_outcome reached .epoch ⟨1⟩ "::2" (visit 2 "other")).2.2.2 first free second

end Database

end Store

end Gatehouse
