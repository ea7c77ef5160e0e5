import Gatehouse.Proofs.Auth.SigningIn
import Gatehouse.Proofs.Auth.Writes
import Gatehouse.Proofs.Store.Tokens
import Gatehouse.Settings.Basic

/-! # How long a session lasts

Settings that are accepted say for how many days sessions live, at least one, and a session that a login is
answered with is valid for that long, with one exception: the number of days has no other bound than that of
the calendar, and an expiry whose year takes more than four digits is kept as a text that is less than that of
every instant now. Such a session has expired when it is made.
-/

namespace Gatehouse

open Gatehouse.Store Gatehouse.Text Gatehouse.Time

theorem Settings.days_pos_of_check {settings : Settings} (checked : settings.check = .ok ()) :
    0 < settings.session.days := by
  apply Int.not_le.mp
  intro none_left
  rw [Settings.check, if_pos none_left] at checked
  cases checked

theorem Auth.SessionPolicy.days_of_ofDays? {days : Int} {policy : SessionPolicy}
    (made : ofDays? days = some policy) : policy.days = days := by
  rw [ofDays?] at made
  split at made
  · cases made
    rfl
  · cases made

namespace Auth.Service

/-! ## The session of a login -/

section SignsIn

variable {service : Service} {db db' : Database} {now noted t expiry : Instant} {token clientIp : String}
  {u u' : UserRow} {answer : LoginAnswer} {later : List Operation}

/-- Whatever follows a login, its session is in the store. -/
theorem SignsIn.stored (signsIn : service.SignsIn now noted token clientIp db u db' answer)
    (expires : service.policy.expiry? now = some expiry) (later : List Operation) :
    (NewSession.mk ⟨u.id⟩ answer.token clientIp now expiry).toRow db.sessions.nextKey ∈
      (db'.run later).sessions.rows := by
  obtain ⟨expiry', expires', -, appended⟩ := signsIn.sessions
  cases expires.symm.trans expires'
  have made : (NewSession.mk ⟨u.id⟩ answer.token clientIp now expiry).toRow db.sessions.nextKey ∈
      db'.sessions.rows := by
    rw [appended, signsIn.token]
    exact List.mem_append_right _ (List.mem_singleton_self _)
  obtain ⟨s, hs, rfl⟩ := (Database.run_sessions_grow db' later).mem made
  exact hs

/-- Until it expires the token of a login leads to the user, as long as the user is not deleted. -/
theorem SignsIn.lasts (signsIn : service.SignsIn now noted token clientIp db u db' answer)
    (expires : service.policy.expiry? now = some expiry) (dated : expiry.Dated) (proper : now.Proper)
    (sound : (db'.run later).Sound) (hu' : u' ∈ (db'.run later).users.rows) (same : u'.id = u.id)
    (legible : u'.Legible) (undeleted : u'.isDeleted = false) (today : t.Dated) (clock : t.Proper)
    (early : t ≤ expiry) :
    ∃ user, authenticate t answer.token (db'.run later) = .ok user ∧ u'.ReadAs user := by
  have proper' : expiry.Proper := proper.addDays? expires
  have stored := signsIn.stored expires later
  have valid : ((NewSession.mk ⟨u.id⟩ answer.token clientIp now expiry).toRow
      db.sessions.nextKey).validAt t = true :=
    (Database.validAt_toRow_iff _ today clock proper').mpr ⟨dated, Instant.toMicros_le_toMicros early⟩
  obtain ⟨user, found, read⟩ := sound.userBySession_of_valid stored valid hu' (congrArg UserId.mk same.symm)
    undeleted legible
  exact ⟨user, authenticate_of_some found, read⟩

/-- Where the year of its expiry has a sign it leads to nobody. -/
theorem SignsIn.lost (signsIn : service.SignsIn now noted token clientIp db u db' answer)
    (expires : service.policy.expiry? now = some expiry) (signed : ¬ expiry.Dated) (proper : now.Proper)
    (sound : (db'.run later).Sound) (today : t.Dated) (clock : t.Proper) :
    authenticate t answer.token (db'.run later) = .error .noSession := by
  have proper' : expiry.Proper := proper.addDays? expires
  apply authenticate_of_none
  apply sound.userBySession_of_invalid (signsIn.stored expires later)
  intro valid
  exact signed ((Database.validAt_toRow_iff db.sessions.nextKey today clock proper').mp valid).1

/-- Once the user is deleted it leads to nobody, at whatever instant. -/
theorem SignsIn.shut_out (signsIn : service.SignsIn now noted token clientIp db u db' answer)
    (sound : (db'.run later).Sound) (hu' : u' ∈ db'.users.rows) (same : u'.id = u.id) (gone : u'.isDeleted = true)
    (t : Instant) : authenticate t answer.token (db'.run later) = .error .noSession := by
  obtain ⟨expiry, expires, -⟩ := signsIn.sessions
  apply authenticate_of_none
  apply Database.userBySession_of_deleted sound (signsIn.stored expires later) hu' _ gone
  exact congrArg UserId.mk same.symm

/-- The user who has logged in is in the store ever after, and can be read on clocks that show four digits. -/
theorem SignsIn.user_stays (signsIn : service.SignsIn now noted token clientIp db u db' answer) (legible : u.Legible)
    (dated : noted.Dated) (dated' : ∀ o ∈ later, o.Dated) :
    ∃ u' ∈ (db'.run later).users.rows, u.Becomes u' ∧ u'.Legible := by
  obtain ⟨before, behind, -, changed⟩ := signsIn.users
  have there : u.loggedIn noted clientIp ∈ db'.users.rows := by
    rw [changed]
    exact List.mem_append_right _ List.mem_cons_self
  obtain ⟨u', hu', became, kept⟩ := (Database.run_users_legible db' dated').mem there
  exact ⟨u', hu', (UserRow.becomes_loggedIn u noted clientIp).trans became, kept (legible.loggedIn dated clientIp)⟩

end SignsIn

/-! ## The life time that the settings say -/

/--
A login under settings that are accepted is answered with a session that begins before it expires, after as
many days as the settings say. Whatever follows, its token leads to the user until then, unless the user is
deleted. All this holds if the expiry has four digits for its year; if not, the token leads to nobody from the
first.
-/
theorem session_lasts {service : Service} {settings : Settings} (checked : settings.check = .ok ())
    (policy : settings.session.policy? = some service.policy) {db : Database} (reached : db.Reachable)
    {now noted : Instant} (dated : noted.Dated) (proper : now.Proper) {token : String} {request : LoginRequest}
    {clientIp : String} {answer : LoginAnswer} {db' : Database}
    (answered : service.signIn now noted token request clientIp db = some (.ok answer, db')) :
    ∃ u ∈ db.users.rows, request.Names u ∧ ∃ expiry, now ≤ expiry ∧
      (now.nanos < Instant.second →
        expiry = ⟨now.seconds + settings.session.days * Instant.day, now.nanos⟩) ∧
      ∀ later : List Operation, (∀ o ∈ later, o.Dated) → ∃ u' ∈ (db'.run later).users.rows, u.Becomes u' ∧
        ∀ t : Instant, t.Dated → t.Proper →
          (expiry.Dated → t ≤ expiry → u'.isDeleted = false →
            ∃ user, authenticate t answer.token (db'.run later) = .ok user ∧ u'.ReadAs user) ∧
          (¬ expiry.Dated → authenticate t answer.token (db'.run later) = .error .noSession) := by
  have days : service.policy.days = settings.session.days := SessionPolicy.days_of_ofDays? policy
  have forward : 0 < service.policy.days := by
    rw [days]
    exact Settings.days_pos_of_check checked
  obtain ⟨u, hu, names, _, _, legible, signsIn⟩ := service.signsIn_of_answered reached.sound answered
  obtain ⟨expiry, expires, ordinary, -⟩ := signsIn.sessions
  rw [SessionPolicy.seconds, days] at ordinary
  refine ⟨u, hu, names, expiry, Instant.le_of_addDays? forward expires, ordinary, ?_⟩
  intro later dated'
  obtain ⟨u', hu', became, legible'⟩ := signsIn.user_stays legible dated dated'
  have sound : (db'.run later).Sound := ((service.reachable_of_signIn reached answered).run later).sound
  refine ⟨u', hu', became, ?_⟩
  intro t today clock
  constructor
  · intro expiry_dated early undeleted
    exact signsIn.lasts expires expiry_dated proper sound hu' became.id legible' undeleted today clock early
  · intro signed
    exact signsIn.lost expires signed proper sound today clock

/-- Ada has registered and her account is active. -/
def adaVerified : List Operation :=
  [.commitRegistration .epoch
      (plain.newUser oneToEight ⟨"ada@example.org", "ada", "Ada", "engine", true⟩ "::1") "ada",
    .activate .epoch ⟨1⟩]

/-- Her login is answered, for as many days as may be. -/
private theorem signsIn_adaVerified (policy : SessionPolicy) (expires : policy.expiry? .epoch ≠ none) :
    let service : Service := { plain with policy := policy }
    let db := (Database.empty {}).run adaVerified
    ∃ u ∈ db.users.rows, ∃ answer db',
      service.signIn .epoch .epoch "token" ⟨"ada", "engine"⟩ "::1" db = some (.ok answer, db') ∧
      service.SignsIn .epoch .epoch "token" "::1" db u db' answer ∧
      ∀ r ∈ db'.users.rows, r.id = 1 ∧ r.isDeleted = false := by
  intro service db
  have sound : db.Sound := ((Database.Reachable.empty {}).run adaVerified).sound
  have legible : db.Legible := (Database.legible_empty {}).run (by decide +kernel)
  have nobodyElse : ∀ r ∈ db.users.rows, r.id = 1 ∧ r.isDeleted = false := by decide +kernel
  obtain ⟨u, hu, names, verified, accepted⟩ : ∃ u ∈ db.users.rows, LoginRequest.Names ⟨"ada", "engine"⟩ u ∧
      u.verifiedAt ≠ none ∧ (Password.verify plain.derive "engine" u.passwordHash).toOption = some true := by
    decide +kernel
  obtain ⟨_, _, _, outcome⟩ := service.signIn_of_names legible sound hu names .epoch .epoch "token" "::1"
  rcases outcome verified (eq_ok_of_toOption accepted) with
    ⟨answer, db', made, signsIn⟩ | ⟨never, _⟩ | ⟨⟨s, hs, _⟩, _⟩
  · refine ⟨u, hu, answer, db', made, signsIn, ?_⟩
    intro r hr
    rcases (signsIn.mem_users_iff sound).mp hr with rfl | ⟨_, hr⟩
    · exact nobodyElse u hu
    · exact nobodyElse r hr
  · exact absurd never expires
  · have none_yet : db.sessions.rows = [] := by decide +kernel
    rw [none_yet] at hs
    cases hs

/-- With no settings but the defaults her session lasts for thirty days. -/
theorem session_lasts_adaVerified :
    let db := (Database.empty {}).run adaVerified
    ({} : Settings).check = .ok () ∧ ({} : Settings).session.policy? = some plain.policy ∧ db.Reachable ∧
      ∃ answer db', plain.signIn .epoch .epoch "token" ⟨"ada", "engine"⟩ "::1" db = some (.ok answer, db') ∧
        ∃ user, authenticate ⟨2592000, 0⟩ answer.token db' = .ok user ∧ user.id = ⟨1⟩ := by
  intro db
  have checked : ({} : Settings).check = .ok () := by rfl
  have policy : ({} : Settings).session.policy? = some plain.policy := by rfl
  have reached : db.Reachable := (Database.Reachable.empty {}).run adaVerified
  obtain ⟨_, _, answer, db', answered, _, alive⟩ := signsIn_adaVerified .standard (by decide +kernel)
  obtain ⟨_, _, _, expiry, _, ordinary, lasting⟩ := session_lasts checked policy reached (by decide +kernel)
    ⟨by decide, by decide⟩ answered
  obtain ⟨u', hu', _, answers⟩ := lasting [] (by simp)
  have expires : expiry = ⟨2592000, 0⟩ := ordinary (by decide)
  obtain ⟨id, undeleted⟩ := alive u' hu'
  obtain ⟨user, found, read⟩ := (answers ⟨2592000, 0⟩ (by decide +kernel) ⟨by decide, by decide⟩).1
    (by rw [expires]; decide +kernel) (by rw [expires]; exact Instant.le_refl _) undeleted
  refine ⟨checked, policy, reached, answer, db', answered, user, found, ?_⟩
  rw [read.id, id]

/-- Settings with sessions that would last for more than ten thousand years. -/
def lavish : Settings :=
  { session := { days := 4000000 } }

/-- They are accepted, and the token of a login leads to nobody, even a second later. -/
theorem session_lost_lavish :
    let service : Service := { plain with policy := ⟨4000000, by decide⟩ }
    let db := (Database.empty {}).run adaVerified
    lavish.check = .ok () ∧ lavish.session.policy? = some service.policy ∧ db.Reachable ∧
      (⟨1, 0⟩ : Instant) ≤ ⟨Instant.epoch.seconds + lavish.session.days * Instant.day, 0⟩ ∧
      ∃ answer db', service.signIn .epoch .epoch "token" ⟨"ada", "engine"⟩ "::1" db = some (.ok answer, db') ∧
        (∀ r ∈ db'.users.rows, r.isDeleted = false) ∧
        authenticate ⟨1, 0⟩ answer.token db' = .error .noSession := by
  intro service db
  have reached : db.Reachable := (Database.Reachable.empty {}).run adaVerified
  obtain ⟨_, _, answer, db', answered, signsIn, alive⟩ := signsIn_adaVerified service.policy (by decide +kernel)
  have sound : (db'.run []).Sound := (service.reachable_of_signIn reached answered).sound
  have expires : service.policy.expiry? .epoch = some ⟨345600000000, 0⟩ := by decide +kernel
  have lost := signsIn.lost (t := ⟨1, 0⟩) expires (by decide +kernel) ⟨by decide, by decide⟩ sound
    (by decide +kernel) ⟨by decide, by decide⟩
  exact ⟨by rfl, by rfl, reached, by decide, answer, db', answered, fun r hr => (alive r hr).2, lost⟩

end Auth.Service

end Gatehouse
