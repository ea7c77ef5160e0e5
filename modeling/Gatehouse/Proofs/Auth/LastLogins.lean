import Gatehouse.Proofs.Auth.SigningIn
import Gatehouse.Proofs.Auth.Writes

/-! # What is noted of logins

A user's row tells when and from where the user logged in last, and the sessions tell it too. The two are
written by different statements of one change, and nothing else ever writes either of them: so they agree after
any run, whatever of it was refused, and nobody has a session who was not verified first.
-/

namespace Gatehouse.Store

open Gatehouse.Time

/-- The last session of an owner, which is the one with the greatest number. -/
def Database.lastSession? (db : Database) (owner : Int) : Option SessionRow :=
  (db.sessions.rows.filter fun s => s.ownerId = owner).getLast?

/-- Rows of users and sessions tell the same of logins. -/
structure Database.Noted (db : Database) : Prop where
  verified : ∀ s ∈ db.sessions.rows, ∃ u ∈ db.users.rows, u.id = s.ownerId ∧ u.verifiedAt ≠ none
  address : ∀ u ∈ db.users.rows, u.lastLoginIp = (db.lastSession? u.id).map (·.clientIp)
  /-- Instant and address are noted together. -/
  instant : ∀ u ∈ db.users.rows, u.lastLoginAt = none ↔ u.lastLoginIp = none

/-- What of a row stays as long as nobody logs in. -/
structure UserRow.Rests (r r' : UserRow) : Prop where
  id : r'.id = r.id
  lastLoginAt : r'.lastLoginAt = r.lastLoginAt
  lastLoginIp : r'.lastLoginIp = r.lastLoginIp
  verifiedAt : r.verifiedAt ≠ none → r'.verifiedAt ≠ none

theorem UserRow.rests_of_relinked {r r' : UserRow} (h : r.Relinked r') : r.Rests r' where
  id := h.becomes.id
  lastLoginAt := by
    have column := congrArg UserRow.lastLoginAt h
    exact column
  lastLoginIp := by
    have column := congrArg UserRow.lastLoginIp h
    exact column
  verifiedAt := by
    intro set
    rw [h.verifiedAt]
    exact set

namespace Database

variable {db db' : Database}

theorem noted_empty (names : TableNames) : (empty names).Noted where
  verified := by
    intro s hs
    cases hs
  address := by
    intro u hu
    cases hu
  instant := by
    intro u hu
    cases hu

/-! ## The last session -/

theorem lastSession?_eq_none_iff {owner : Int} :
    db.lastSession? owner = none ↔ ∀ s ∈ db.sessions.rows, s.ownerId ≠ owner := by
  simp [lastSession?]

theorem lastSession?_spec (h : db.sessions.Ordered) {owner : Int} {last : SessionRow}
    (found : db.lastSession? owner = some last) : last ∈ db.sessions.rows ∧ last.ownerId = owner ∧
      ∀ s ∈ db.sessions.rows, s.ownerId = owner → s.id ≤ last.id := by
  obtain ⟨earlier, parts⟩ := List.getLast?_eq_some_iff.mp found
  have among : last ∈ db.sessions.rows.filter fun s => s.ownerId = owner := by
    rw [parts]
    exact List.mem_append_right _ (List.mem_singleton_self _)
  have rising := h.rising.filter fun s => decide (s.ownerId = owner)
  rw [parts, List.pairwise_append] at rising
  refine ⟨(List.mem_filter.mp among).1, of_decide_eq_true (List.mem_filter.mp among).2, ?_⟩
  intro s hs owned
  have among_s : s ∈ db.sessions.rows.filter fun s => s.ownerId = owner :=
    List.mem_filter.mpr ⟨hs, decide_eq_true owned⟩
  rw [parts, List.mem_append, List.mem_singleton] at among_s
  rcases among_s with before | rfl
  · exact Int.le_of_lt (rising.2.2 s before last (List.mem_singleton_self _))
  · exact Int.le_refl _

/-- A new session is the last one of its owner, and the others have the last one that they had. -/
theorem lastSession?_of_append {new : SessionRow} (h : db'.sessions.rows = db.sessions.rows ++ [new])
    (owner : Int) :
    db'.lastSession? owner = if new.ownerId = owner then some new else db.lastSession? owner := by
  rw [lastSession?, h, List.filter_append]
  by_cases owned : new.ownerId = owner
  · rw [if_pos owned, List.filter_cons_of_pos (by simpa using owned), List.filter_nil, List.getLast?_concat]
  · rw [if_neg owned, List.filter_cons_of_neg (by simpa using owned), List.filter_nil, List.append_nil]
    rfl

/-! ## What keeps the two together -/

/-- While nobody logs in, new users have no sessions and the others rest. -/
theorem Noted.of_rests (h : db.Noted) (sound : db.Sound) (sessions : db'.sessions = db.sessions)
    (users : db.users.Grows UserRow.Rests
      (fun r => db.users.Newer r ∧ r.lastLoginAt = none ∧ r.lastLoginIp = none) db'.users) : db'.Noted := by
  have same : ∀ owner, db'.lastSession? owner = db.lastSession? owner := by
    intro owner
    rw [lastSession?, sessions]
    rfl
  refine ⟨?_, ?_, ?_⟩
  · intro s hs
    rw [sessions] at hs
    obtain ⟨u, hu, hid, verified⟩ := h.verified s hs
    obtain ⟨u', hu', rests⟩ := users.mem hu
    exact ⟨u', hu', rests.id.trans hid, rests.verifiedAt verified⟩
  · intro u' hu'
    rw [same]
    rcases users.mem_back hu' with ⟨u, hu, rests⟩ | ⟨newer, _, blank⟩
    · rw [rests.lastLoginIp, rests.id]
      exact h.address u hu
    · -- an owner of a session is older than a new user
      have nothing : db.lastSession? u'.id = none := by
        rw [lastSession?_eq_none_iff]
        intro s hs owned
        obtain ⟨u, hu, hid⟩ := sound.session_owner s hs
        exact Int.ne_of_lt (newer u hu) (hid.trans owned)
      rw [blank, nothing]
      rfl
  · intro u' hu'
    rcases users.mem_back hu' with ⟨u, hu, rests⟩ | ⟨_, blank, blank'⟩
    · rw [rests.lastLoginAt, rests.lastLoginIp]
      exact h.instant u hu
    · rw [blank, blank']

end Database

/-! ## Operations that nobody logs in with -/

namespace Operation

/-- Whether an operation may note a login or open a session. -/
def concernsLogins : Operation → Bool
  | recordLogin _ _ _ => true
  | createSession _ => true
  | commitLogin _ _ _ _ => true
  | _ => false

variable {o : Operation}

theorem sessions_of_other (other : o.concernsLogins = false) (db : Database) :
    (o.after db).sessions = db.sessions := by
  rcases o.after_cases db with same | made
  · rw [same]
  · generalize o.after db = db' at made
    cases made with
    | createSession data => cases other
    | commitLogin now id clientIp data => cases other
    | _ => rfl

theorem Turns.rests (other : o.concernsLogins = false) {r r' : UserRow} (h : o.Turns r r') : r.Rests r' := by
  cases h with
  | relinked same => exact UserRow.rests_of_relinked same
  | noted now clientIp => cases other
  | signedIn now clientIp data => cases other
  | verified now first => exact ⟨rfl, rfl, rfl, fun _ => Option.some_ne_none _⟩
  | deleted now first => exact ⟨rfl, rfl, rfl, fun set => set⟩

theorem Adds.blank {r : UserRow} (h : o.Adds r) : r.lastLoginAt = none ∧ r.lastLoginIp = none := by
  have columns : ∀ {now data k}, r.unlinked = NewUser.toRow data now k →
      r.lastLoginAt = none ∧ r.lastLoginIp = none := by
    intro now data k same
    exact ⟨congrArg UserRow.lastLoginAt same, congrArg UserRow.lastLoginIp same⟩
  cases h with
  | created now data k same => exact columns same
  | registered now data path k same => exact columns same

end Operation

theorem Database.Noted.after {db : Database} (h : db.Noted) (sound : db.Sound) {o : Operation}
    (other : o.concernsLogins = false) : (o.after db).Noted := by
  have users : db.users.Grows UserRow.Rests (fun r => r.lastLoginAt = none ∧ r.lastLoginIp = none)
      (o.after db).users :=
    (o.users_grow db).imp (fun _ _ turned => turned.rests other) fun _ added => added.blank
  have newer := users.newer (sound.after o).users_ordered fun _ _ rests => rests.id
  exact h.of_rests sound (Operation.sessions_of_other other db) (newer.and users)

end Gatehouse.Store

namespace Gatehouse.Auth

open Gatehouse.Store Gatehouse.Time

namespace Service

variable {service : Service}

/-! ## Requests -/

theorem SignsIn.noted {db db' : Database} {now noted : Instant} {token clientIp : String} {u : UserRow}
    {answer : LoginAnswer} (signsIn : service.SignsIn now noted token clientIp db u db' answer) (h : db.Noted)
    (sound : db.Sound) (verified : u.verifiedAt ≠ none) : db'.Noted := by
  obtain ⟨session, appended, owner, address⟩ : ∃ session,
      db'.sessions.rows = db.sessions.rows ++ [session] ∧ session.ownerId = u.id ∧ session.clientIp = clientIp := by
    obtain ⟨_, _, _, appended⟩ := signsIn.sessions
    exact ⟨_, appended, rfl, rfl⟩
  have here : u.loggedIn noted clientIp ∈ db'.users.rows := (signsIn.mem_users_iff sound).mpr (Or.inl rfl)
  have last := Database.lastSession?_of_append appended
  rw [owner] at last
  refine ⟨?_, ?_, ?_⟩
  · intro s hs
    rw [appended, List.mem_append, List.mem_singleton] at hs
    rcases hs with hs | rfl
    · obtain ⟨r, hr, hid, hv⟩ := h.verified s hs
      by_cases same : u.id = r.id
      · exact ⟨_, here, same.trans hid, verified⟩
      · exact ⟨r, (signsIn.mem_users_iff sound).mpr (Or.inr ⟨same, hr⟩), hid, hv⟩
    · exact ⟨_, here, owner.symm, verified⟩
  · intro r hr
    rw [last]
    rcases (signsIn.mem_users_iff sound).mp hr with rfl | ⟨other, hr⟩
    · have own : u.id = (u.loggedIn noted clientIp).id := rfl
      rw [if_pos own, Option.map_some, address]
      rfl
    · rw [if_neg other]
      exact h.address r hr
  · intro r hr
    rcases (signsIn.mem_users_iff sound).mp hr with rfl | ⟨_, hr⟩
    · exact iff_of_false (Option.some_ne_none _) (Option.some_ne_none _)
    · exact h.instant r hr

theorem noted_call {j : Journal} (h : j.db.Noted) (sound : j.db.Sound) (c : Call) :
    (service.call j c).db.Noted := by
  obtain ⟨request, draw⟩ := c
  cases request with
  | signIn login clientIp =>
      rw [call, perform]
      cases hs : service.signIn draw.now draw.noted draw.token login clientIp j.db with
      | none => exact h
      | some result =>
          obtain ⟨outcome, db'⟩ := result
          cases outcome with
          | error e =>
              rw [signIn_of_error hs]
              exact h
          | ok answer =>
              obtain ⟨u, _, _, verified, _, _, signsIn⟩ := service.signsIn_of_answered sound hs
              exact signsIn.noted h sound verified
  | _ =>
      -- the other requests make no operation that concerns logins
      rcases service.call_store j ⟨_, draw⟩ with same | ⟨o, makes, made⟩
      · rw [same]
        exact h
      · rw [made]
        refine h.after sound ?_
        cases makes <;> rfl

theorem noted_after {j : Journal} (housed : j.db.Housed) (h : j.db.Noted) (calls : List Call) :
    (service.after j calls).db.Noted := by
  induction calls generalizing j with
  | nil => exact h
  | cons c calls ih =>
      have turn : service.Turn c.draw.now c.draw.noted j (service.call j c) := turn_call housed c
      exact ih (turn.housed housed) (noted_call h housed.sound c)

/--
After any run of requests, made or refused: who has a session is verified. Of a user without sessions no login
is noted, and of one with sessions the last login is noted with the address of the session that has the
greatest number.
-/
theorem lastLogins_after (service : Service) (names : TableNames) (calls : List Call) :
    let db := (service.after (Journal.start names) calls).db
    (∀ s ∈ db.sessions.rows, ∃ u ∈ db.users.rows, u.id = s.ownerId ∧ u.verifiedAt ≠ none) ∧
    ∀ u ∈ db.users.rows,
      (u.lastLoginAt = none ∧ u.lastLoginIp = none ↔ ∀ s ∈ db.sessions.rows, s.ownerId ≠ u.id) ∧
      ((∃ s ∈ db.sessions.rows, s.ownerId = u.id) →
        u.lastLoginAt ≠ none ∧ ∃ last ∈ db.sessions.rows, last.ownerId = u.id ∧
          (∀ s ∈ db.sessions.rows, s.ownerId = u.id → s.id ≤ last.id) ∧ u.lastLoginIp = some last.clientIp) := by
  intro db
  have housed : db.Housed := housed_after (Journal.housed_start names) calls
  have noted : db.Noted := noted_after (Journal.housed_start names) (Database.noted_empty names) calls
  refine ⟨noted.verified, ?_⟩
  intro u hu
  have address := noted.address u hu
  constructor
  · rw [noted.instant u hu, and_self, address, Option.map_eq_none_iff, Database.lastSession?_eq_none_iff]
  · rintro ⟨s, hs, owned⟩
    cases found : db.lastSession? u.id with
    | none => exact absurd owned (Database.lastSession?_eq_none_iff.mp found s hs)
    | some last =>
        rw [found] at address
        obtain ⟨hlast, owned', greatest⟩ := Database.lastSession?_spec housed.sound.sessions_ordered found
        refine ⟨?_, last, hlast, owned', greatest, address⟩
        rw [Ne, noted.instant u hu, address]
        exact Option.some_ne_none _

end Service

end Gatehouse.Auth
