import Gatehouse.Proofs.Auth.Expiries
import Gatehouse.Proofs.Auth.Lifetimes
import Gatehouse.Proofs.Http.ClientAddress
import Gatehouse.Proofs.Http.Cookies
import Gatehouse.Proofs.Http.Effects
import Gatehouse.Proofs.Json.Arrays
import Gatehouse.Proofs.Store.Logins

/-! # What the client is told of a login and what the store keeps

The token of a login goes to the client twice, in the body and in a cookie, and to the store once. Its life time
is told to the client in seconds, and the store keeps an instant that has been counted in days; without leap
seconds on the clock both are the same. Accepted settings name a cookie that can be sent with every token of the
service. A login that is refused is answered without a cookie.
-/

namespace Gatehouse

open Gatehouse.Auth Gatehouse.Store Gatehouse.Text Gatehouse.Time

theorem Settings.isCookieName_of_check {settings : Settings} (checked : settings.check = .ok ()) :
    isCookieName settings.session.cookieName = true := by
  have days := Int.not_le.mpr (days_pos_of_check checked)
  cases named : isCookieName settings.session.cookieName with
  | true => rfl
  | false =>
      rw [Settings.check, if_neg days, named] at checked
      cases checked

namespace Http

/-- What the client is told of a login agrees with the session that is kept of it, and with its user. -/
structure Response.TellsOf (session : Settings.SessionSection) (seconds : Int) (ip : String) (users : List UserRow)
    (answer : Response) (row : SessionRow) : Prop where
  body : ∃ told : LoginAnswer, answer.body = .json told.toJson ∧ told.token = row.token
  cookie : ∃ h, answer.cookies = [h] ∧
    pieces ';' h.toList = (session.cookieName ++ "=" ++ row.token).toList :: attributes session seconds
  lifetime : ∃ kept, row.toSession = .ok kept ∧
    kept.expiredAt = ⟨kept.createdAt.seconds + seconds, kept.createdAt.nanos⟩
  clientIp : row.clientIp = ip
  owner : ∃ u ∈ users, u.id = row.ownerId
  noted : ∀ u ∈ users, u.id = row.ownerId → u.lastLoginIp = some ip

namespace App

variable {app : App} {moment : Moment} {request : Request} {db : Database}

/-! ## The two ways in which a login is answered -/

/-- How a login is answered, and which store is left. -/
inductive LoginOutcome (app : App) (moment : Moment) (request : Request) (db : Database) :
    Option Response × Database → Prop
  | refused (r : Response) (status : r.status ≠ 200) (cookies : r.cookies = []) :
      LoginOutcome app moment request db (some r, db)
  | signedIn (told : LoginAnswer) (db' : Database) (u : UserRow)
      (signsIn : app.service.SignsIn moment.now moment.noted moment.token (request.headers.clientIp request.peer)
        db u db' told) :
      LoginOutcome app moment request db (some (app.loginResponse told), db')

theorem bodyAs_refused {α : Type} {read : Json.Reader α} {r : Response} (h : bodyAs request read = .error r) :
    r.status ≠ 200 ∧ r.cookies = [] := by
  rw [bodyAs] at h
  split at h
  · split at h
    · cases h
      exact ⟨by decide, rfl⟩
    · split at h <;> cases h <;> exact ⟨by decide, rfl⟩
  · cases h
    exact ⟨by decide, rfl⟩

theorem login_outcome (sound : db.Sound) (expires : app.service.policy.expiry? moment.now ≠ none) :
    LoginOutcome app moment request db (app.login moment request db) := by
  rw [login]
  cases read : bodyAs request LoginRequest.reader with
  | error r =>
      obtain ⟨status, cookies⟩ := bodyAs_refused read
      exact .refused r status cookies
  | ok data =>
      dsimp only
      split
      · rename_i unanswered
        exact absurd (Service.signIn_eq_none_iff.mp unanswered).2 expires
      · rename_i e db' refused
        rw [Service.signIn_of_error refused]
        exact .refused _ (statusOf_ne e) rfl
      · rename_i told db' answered
        obtain ⟨u, _, _, _, _, _, signsIn⟩ := app.service.signsIn_of_answered sound answered
        exact .signedIn told db' u signsIn

/-! ## A login that is answered with a session -/

section SignsIn

variable {settings : Settings} {ip : String} {told : LoginAnswer} {db' : Database} {u : UserRow} {expiry : Instant}

theorem cookie_of_loginResponse (named : Settings.isCookieName app.session.cookieName = true)
    (safe : ∀ c ∈ told.token.toList, isSafe c = true) :
    ∃ h, (app.loginResponse told).cookies = [h] ∧ pieces ';' h.toList =
      (app.session.cookieName ++ "=" ++ told.token).toList :: attributes app.session app.service.policy.seconds := by
  refine ⟨cookieText app.session told.token app.service.policy.seconds, ?_, ?_⟩
  · rw [loginResponse, sessionCookie_eq named safe]
    rfl
  · rw [pieces_cookieText named safe, pairText_eq]

/-- Off leap seconds the session that is read back lasts for as long as the service says, to the nanosecond. -/
theorem row_of_signsIn (signsIn : app.service.SignsIn moment.now moment.noted moment.token ip db u db' told)
    (expires : app.service.policy.expiry? moment.now = some expiry) (dated : moment.now.Dated)
    (dated' : expiry.Dated) (ordinary : moment.now.nanos < Instant.second) :
    ∃ row, db'.sessions.rows = db.sessions.rows ++ [row] ∧ row.token = told.token ∧ row.clientIp = ip ∧
      row.ownerId = u.id ∧ ∃ kept, row.toSession = .ok kept ∧
        kept.expiredAt = ⟨kept.createdAt.seconds + app.service.policy.seconds, kept.createdAt.nanos⟩ := by
  have proper : moment.now.Proper := ⟨by omega, fun leap => absurd ordinary (Nat.not_lt.mpr leap)⟩
  have proper' : expiry.Proper := proper.addDays? expires
  have expiry_eq := SessionPolicy.expiry_eq expires ordinary
  obtain ⟨expiry', expires', -, opened⟩ := signsIn.sessions
  cases expires.symm.trans expires'
  subst expiry_eq
  let data : NewSession := ⟨⟨u.id⟩, moment.token, ip, moment.now,
    ⟨moment.now.seconds + app.service.policy.seconds, moment.now.nanos⟩⟩
  have read : (data.toRow db.sessions.nextKey).toSession = .ok (data.toMicros.toSession db.sessions.nextKey) :=
    toSession_toRow db.sessions.nextKey ⟨dated, proper⟩ ⟨dated', proper'⟩
  exact ⟨data.toRow db.sessions.nextKey, opened, signsIn.token.symm, rfl, rfl, _, read, rfl⟩

theorem noted_of_signsIn (sound : db.Sound) {now noted : Instant} {token : String}
    (signsIn : app.service.SignsIn now noted token ip db u db' told) :
    (∃ v ∈ db'.users.rows, v.id = u.id) ∧ ∀ v ∈ db'.users.rows, v.id = u.id → v.lastLoginIp = some ip := by
  constructor
  · exact ⟨u.loggedIn noted ip, (signsIn.mem_users_iff sound).mpr (Or.inl rfl), rfl⟩
  · intro v hv same
    rcases (signsIn.mem_users_iff sound).mp hv with rfl | ⟨other, _⟩
    · rfl
    · exact absurd same.symm other

end SignsIn

/--
A login under accepted settings is answered with 200 exactly when one session is new. Then the token of its row is
told in the body and in the cookie, the cookie lives as long as the row says, and the row and the user name the
address of the client. Every other answer has no cookie and leaves the sessions as they were. The address is that
of the first entry of the first header of the proxies, if that can be read and is not blank, or else that of the
other side.
-/
theorem login_answer {settings : Settings} (checked : settings.check = .ok ())
    (policy : settings.session.policy? = some app.service.policy) (session : app.session = settings.session)
    (reached : db.Reachable) (posted : request.method = "POST") (path : request.path = "/v1/login".toList)
    (sized : ∀ a ∈ request.peer, a.Sized) {octets : List UInt8} (drawn : moment.token = tokenOf octets)
    (dated : moment.now.Dated) (ordinary : moment.now.nanos < Instant.second) {expiry : Instant}
    (expires : app.service.policy.expiry? moment.now = some expiry) (dated' : expiry.Dated) :
    let outcome := app.handle moment request db
    let ip := request.headers.clientIp request.peer
    (∃ answer, outcome.1 = some answer ∧
      (answer.status = 200 ↔ ∃ row, outcome.2.sessions.rows = db.sessions.rows ++ [row]) ∧
      (∀ row, outcome.2.sessions.rows = db.sessions.rows ++ [row] →
        answer.TellsOf settings.session (settings.session.days * 86400) ip outcome.2.users.rows row) ∧
      (answer.status ≠ 200 → answer.cookies = [] ∧ outcome.2.sessions = db.sessions)) ∧
    (∀ entry, request.headers.firstEntry = some entry → entry ≠ [] → ip = String.ofList entry) ∧
    ((∀ entry ∈ request.headers.firstEntry, entry = []) → ip = (request.peer.map Address.text).getD "unknown") ∧
    Headers.IsNoted ip := by
  intro outcome ip
  have routed : Route.ofPath? app.withHealth request.path = some .login := by
    rw [path, Route.ofPath?_login]
  have handled : outcome =
      ((app.login moment request db).1.map fun r => { r with access := app.cors.onAnswer request.headers },
        (app.login moment request db).2) := handle_posted posted routed rfl
  have named : Settings.isCookieName app.session.cookieName = true := by
    rw [session]
    exact Settings.isCookieName_of_check checked
  have seconds : app.service.policy.seconds = settings.session.days * 86400 := by
    rw [SessionPolicy.seconds, SessionPolicy.days_of_ofDays? policy]
  have result : LoginOutcome app moment request db (app.login moment request db) :=
    login_outcome reached.sound (by simp [expires])
  refine ⟨?_, fun entry => Headers.clientIp_of_entry, Headers.clientIp_of_no_entry, Headers.isNoted_clientIp sized⟩
  rw [handled]
  generalize app.login moment request db = left at result
  cases result with
  | refused r status cookies =>
      have none_new : ¬ ∃ row, db.sessions.rows = db.sessions.rows ++ [row] := by simp
      refine ⟨_, rfl, iff_of_false status none_new, ?_, fun _ => ⟨cookies, rfl⟩⟩
      exact fun row new => absurd ⟨row, new⟩ none_new
  | signedIn told db' u signsIn =>
      obtain ⟨row, opened, token, client, owner, lifetime⟩ := row_of_signsIn signsIn expires dated dated' ordinary
      obtain ⟨there, noted⟩ := noted_of_signsIn reached.sound signsIn
      have safe : ∀ c ∈ told.token.toList, isSafe c = true := by
        rw [signsIn.token, drawn]
        exact isSafe_tokenOf octets
      have cookie := cookie_of_loginResponse named safe
      rw [seconds, session, ← token] at cookie
      rw [seconds] at lifetime
      rw [← owner] at there noted
      refine ⟨_, rfl, iff_of_true rfl ⟨row, opened⟩, ?_, fun other => absurd rfl other⟩
      intro row' opened'
      have same : row = row' := by
        rw [opened] at opened'
        simpa using opened'
      subst same
      exact ⟨⟨told, rfl, token.symm⟩, cookie, lifetime, client, there, noted⟩

/-- An application with default settings and a service whose tags are the passwords. -/
def reception : App :=
  ⟨Service.plain, {}, .everyone, false⟩

/-- Ada logs in by way of two proxies. Behind her login stands an octet that is no character. -/
def adaLogsIn : Request where
  method := "POST"
  path := "/v1/login".toList
  query := []
  headers := [.named "Content-Type" (utf8 "application/json"), .named "X-Forwarded-For" (utf8 " 192.0.2.1 , 10.0.0.1")]
  body := utf8 "[\"ada\",\"engine\"]" ++ [255]
  peer := Address.ofSocket? "10.0.0.1:40000"

theorem bodyAs_adaLogsIn : bodyAs adaLogsIn LoginRequest.reader = .ok ⟨"ada", "engine"⟩ := by
  have json : adaLogsIn.headers.bringJson = true := by decide +kernel
  have small : ¬ greatestBody < adaLogsIn.body.length := by decide +kernel
  have identifier : "ada".toList.all Json.isPlain = true := by decide
  have password : "engine".toList.all Json.isPlain = true := by decide
  have read : Json.readFront LoginRequest.reader adaLogsIn.body = .ok ⟨"ada", "engine"⟩ :=
    LoginRequest.readFront_of_plain identifier password [255]
  rw [bodyAs, if_pos json, if_neg small, read]

/-- Her session is new, and what she is told agrees with it. -/
theorem login_answer_adaLogsIn :
    let db := (Database.empty {}).run Service.adaVerified
    let moment : Moment := ⟨⟨0, 999⟩, ⟨0, 1500⟩, tokenOf (List.replicate 32 0), [], 0⟩
    let outcome := reception.handle moment adaLogsIn db
    ∃ answer row, outcome.1 = some answer ∧ answer.status = 200 ∧ outcome.2.sessions.rows = [row] ∧
      answer.TellsOf {} 2592000 "192.0.2.1" outcome.2.users.rows row := by
  intro db moment outcome
  have checked : ({} : Settings).check = .ok () := by rfl
  have policy : ({} : Settings).session.policy? = some reception.service.policy := by rfl
  have reached : db.Reachable := (Database.Reachable.empty {}).run _
  have none_yet : db.sessions.rows = [] := by decide +kernel
  have one_new : (reception.login moment adaLogsIn db).2.sessions.rows.length = 1 := by
    rw [login, bodyAs_adaLogsIn]
    decide +kernel
  have handled : outcome = _ := handle_posted rfl Route.ofPath?_login rfl
  have left : outcome.2 = (reception.login moment adaLogsIn db).2 := by
    rw [handled]
    rfl
  have ip : adaLogsIn.headers.clientIp adaLogsIn.peer = "192.0.2.1" := by decide +kernel
  have sized : ∀ a ∈ adaLogsIn.peer, a.Sized := by
    intro a read
    have parsed : Address.ofSocket? "10.0.0.1:40000" = some a := read
    exact Address.sized_of_ofSocket? parsed
  have expires : reception.service.policy.expiry? moment.now = some ⟨2592000, 999⟩ := by decide +kernel
  obtain ⟨⟨answer, answered, new_iff, told, _⟩, _⟩ := login_answer checked policy rfl reached rfl rfl sized rfl
    (by decide +kernel) (by decide) expires (by decide +kernel)
  obtain ⟨row, rows⟩ := List.length_eq_one_iff.mp one_new
  rw [← left] at rows
  have new : outcome.2.sessions.rows = db.sessions.rows ++ [row] := by
    rw [rows, none_yet]
    rfl
  have tells := told row new
  rw [ip] at tells
  exact ⟨answer, row, answered, new_iff.mpr ⟨row, new⟩, rows, tells⟩

end App

end Http

end Gatehouse
