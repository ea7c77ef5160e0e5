import Gatehouse.Auth.Login
import Gatehouse.Health
import Gatehouse.Proofs.Json.Members
import Gatehouse.Records.Json
import Gatehouse.Settings.Json

/-! # Records are read back from JSON

Every record that answers and files carry is read back from its own text: its strings may hold any characters, its
numbers fill their bits, and its instants are those of the whole calendar. Of a user everything is read back but the
password hash, which the text does not depend on.
-/

namespace Gatehouse

open Gatehouse.Json Gatehouse.Time

/-! ## What fits a record -/

def IsInt64 (n : Int) : Prop :=
  -9223372036854775808 ≤ n ∧ n ≤ 9223372036854775807

instance (n : Int) : Decidable (IsInt64 n) := by
  unfold IsInt64
  infer_instance

/-- An instant of the calendar, with leap seconds at the end of a minute only. -/
def Time.Instant.OnCalendar (t : Instant) : Prop :=
  t.Representable ∧ t.Proper

/-- Numbers and instants of a user that the program can hold. -/
structure User.Fits (u : User) : Prop where
  id : IsInt64 u.id.number
  namespaceId : ∀ n ∈ u.namespaceId, IsInt64 n.number
  createdAt : u.createdAt.OnCalendar
  deletedAt : ∀ t ∈ u.deletedAt, t.OnCalendar
  verifiedAt : ∀ t ∈ u.verifiedAt, t.OnCalendar
  lastLoginAt : ∀ t ∈ u.lastLoginAt, t.OnCalendar

/-- The same of a session. -/
structure Session.Fits (s : Session) : Prop where
  id : IsInt64 s.id
  ownerId : IsInt64 s.ownerId.number
  createdAt : s.createdAt.OnCalendar
  expiredAt : s.expiredAt.OnCalendar

/-- The same of a namespace. -/
structure Namespace.Fits (n : Namespace) : Prop where
  id : IsInt64 n.id.number
  ownerId : IsInt64 n.ownerId

/-- The same of settings. -/
structure Settings.Fits (s : Settings) : Prop where
  port : s.network.port < Nat.pow 2 16
  connections : s.store.connections < Nat.pow 2 32
  days : IsInt64 s.session.days

/-! ## Members -/

theorem reads_int (n : Int) (h : IsInt64 n) : Reads int64 (.int n) n :=
  reads_int64 h.1 h.2

theorem reads_userId {id : UserId} (h : IsInt64 id.number) : Reads userId (.int id.number) id := by
  intro rest ended
  rw [userId, reads_int64 h.1 h.2 rest ended]
  rfl

theorem reads_namespaceId {id : NamespaceId} (h : IsInt64 id.number) : Reads namespaceId (.int id.number) id := by
  intro rest ended
  rw [namespaceId, reads_int64 h.1 h.2 rest ended]
  rfl

theorem reads_ownerKind (kind : OwnerKind) : Reads ownerKind (.str kind.word) kind := by
  apply reads_oneOf
  cases kind <;> decide

theorem reads_healthStatus (status : HealthStatus) : Reads (oneOf HealthStatus.words) (.str status.word) status := by
  apply reads_oneOf
  cases status <;> decide

theorem reads_ofInstant {t : Instant} (h : t.OnCalendar) : Reads instant (ofInstant t) t :=
  reads_instant h.1 h.2

theorem reads_instant? {t? : Option Instant} (h : ∀ t ∈ t?, t.OnCalendar) :
    Reads (nullable instant) (ofOption ofInstant t?) t? :=
  reads_ofOption (fun t ht => reads_ofInstant (h t ht)) fun _ => Json.noConfusion

theorem reads_string? (s? : Option String) : Reads (nullable string) (ofOption .str s?) s? :=
  reads_ofOption (fun s _ => reads_string s) fun _ => Json.noConfusion

/-! ## Records -/

theorem reads_user {u : User} (h : u.Fits) : Reads User.reader u.toJson { u with passwordHash := "" } := by
  have namespaceId : Reads (nullable Json.namespaceId) (ofOption (fun n => .int n.number) u.namespaceId)
      u.namespaceId :=
    reads_ofOption (fun n hn => reads_namespaceId (h.namespaceId n hn)) fun _ => Json.noConfusion
  apply reads_record (by decide)
  exact
    .member (reads_userId h.id) <|
    .member (reads_string u.email) <|
    .member (reads_string u.username) <|
    .member (reads_string u.name) <|
    .omitted (by decide) <|
    .member (reads_boolean u.publicEmail) <|
    .member (reads_boolean u.isAdmin) <|
    .member namespaceId <|
    .member (reads_ofInstant h.createdAt) <|
    .member (reads_instant? h.deletedAt) <|
    .member (reads_instant? h.verifiedAt) <|
    .member (reads_instant? h.lastLoginAt) <|
    .member (reads_string? u.lastLoginIp) <|
    .member (reads_string u.registerIp) .done

theorem reads_session {s : Session} (h : s.Fits) : Reads Session.reader s.toJson s := by
  apply reads_record (by decide)
  exact
    .member (reads_int s.id h.id) <|
    .member (reads_userId h.ownerId) <|
    .member (reads_string s.token) <|
    .member (reads_string s.clientIp) <|
    .member (reads_ofInstant h.createdAt) <|
    .member (reads_ofInstant h.expiredAt) .done

theorem reads_namespace {n : Namespace} (h : n.Fits) : Reads Namespace.reader n.toJson n := by
  apply reads_record (by decide)
  exact
    .member (reads_namespaceId h.id) <|
    .member (reads_int n.ownerId h.ownerId) <|
    .member (reads_ownerKind n.ownerKind) <|
    .member (reads_string n.path) .done

theorem reads_loginAnswer (a : Auth.LoginAnswer) : Reads Auth.LoginAnswer.reader a.toJson a := by
  apply reads_record (by decide)
  exact
    .member (reads_string a.token) <|
    .member (reads_string? a.path) <|
    .member (reads_string a.name) <|
    .member (reads_string a.email) <|
    .member (reads_boolean a.publicEmail) .done

theorem reads_healthReport {r : HealthReport} (h : r.uptimeSeconds < Nat.pow 2 64) :
    Reads HealthReport.reader r.toJson r := by
  apply reads_record (by decide)
  exact
    .member (reads_healthStatus r.status) <|
    .member (reads_string r.version) <|
    .member (reads_unsigned (by decide) h) <|
    .member (reads_boolean r.storeAnswers) .done

theorem reads_tableNames (t : Store.TableNames) : Reads Store.TableNames.reader t.toJson t := by
  apply reads_record (by decide)
  exact
    .member (reads_string t.users) <|
    .member (reads_string t.sessions) <|
    .member (reads_string t.namespaces) .done

namespace Settings

theorem reads_serverSection (s : ServerSection) : Reads ServerSection.reader s.toJson s := by
  apply reads_record (by decide)
  exact .member (reads_string s.name) .done

theorem reads_networkSection {s : NetworkSection} (port : s.port < Nat.pow 2 16) :
    Reads NetworkSection.reader s.toJson s := by
  apply reads_record (by decide)
  exact
    .member (reads_string s.address) <|
    .member (reads_unsigned (by decide) port) <|
    .member (reads_list fun origin _ => reads_string origin) .done

theorem reads_storeSection {s : StoreSection} (connections : s.connections < Nat.pow 2 32) :
    Reads StoreSection.reader s.toJson s := by
  apply reads_record (by decide)
  exact
    .member (reads_string s.url) <|
    .member (reads_unsigned (by decide) connections) <|
    .member (reads_boolean s.writeAhead) <|
    .member (reads_tableNames s.tables) .done

theorem reads_sessionSection {s : SessionSection} (days : IsInt64 s.days) :
    Reads SessionSection.reader s.toJson s := by
  apply reads_record (by decide)
  exact
    .member (reads_int s.days days) <|
    .member (reads_string s.cookieName) <|
    .member (reads_boolean s.cookieSecure) <|
    .member (reads_boolean s.cookieHttpOnly) .done

theorem reads_loggingSection (s : LoggingSection) : Reads LoggingSection.reader s.toJson s := by
  apply reads_record (by decide)
  exact
    .member (reads_string s.level) <|
    .member (reads_string s.format) .done

theorem reads_healthSection (s : HealthSection) : Reads HealthSection.reader s.toJson s := by
  apply reads_record (by decide)
  exact .member (reads_boolean s.health) .done

end Settings

theorem reads_settings {s : Settings} (h : s.Fits) : Reads Settings.reader s.toJson s := by
  apply reads_record (by decide)
  exact
    .member (Settings.reads_serverSection s.server) <|
    .member (Settings.reads_networkSection h.port) <|
    .member (Settings.reads_storeSection h.connections) <|
    .member (Settings.reads_sessionSection h.days) <|
    .member (Settings.reads_loggingSection s.logging) <|
    .member (Settings.reads_healthSection s.observability) .done

/-! ## There and back -/

/-- The text of a record is read as the record. That of a user tells nothing of its password hash. -/
theorem records_read_back :
    (∀ s : Session, s.Fits → readText Session.reader s.toJson.text.toList = .ok s) ∧
      (∀ n : Namespace, n.Fits → readText Namespace.reader n.toJson.text.toList = .ok n) ∧
      (∀ a : Auth.LoginAnswer, readText Auth.LoginAnswer.reader a.toJson.text.toList = .ok a) ∧
      (∀ t : Store.TableNames, readText Store.TableNames.reader t.toJson.text.toList = .ok t) ∧
      (∀ r : HealthReport, r.uptimeSeconds < Nat.pow 2 64 →
        readText HealthReport.reader r.toJson.text.toList = .ok r) ∧
      (∀ s : Settings, s.Fits → readText Settings.reader s.toJson.text.toList = .ok s) ∧
      ∀ u : User, (∀ hash, ({ u with passwordHash := hash } : User).toJson.text = u.toJson.text) ∧
        (u.Fits → readText User.reader u.toJson.text.toList = .ok { u with passwordHash := "" }) := by
  refine ⟨?sessions, ?namespaces, ?answers, ?tables, ?reports, ?settings, ?users⟩
  case sessions => exact fun s h => (reads_session h).readText
  case namespaces => exact fun n h => (reads_namespace h).readText
  case answers => exact fun a => (reads_loginAnswer a).readText
  case tables => exact fun t => (reads_tableNames t).readText
  case reports => exact fun r h => (reads_healthReport h).readText
  case settings => exact fun s h => (reads_settings h).readText
  case users => exact fun u => ⟨fun _ => rfl, fun h => (reads_user h).readText⟩

/-- The first instant of the calendar, its last leap second and the extreme numbers: all of them fit. -/
theorem records_read_back_extreme :
    let first : Instant := ⟨-8334601228800, 0⟩
    let last : Instant := ⟨8210266876799, 1999999999⟩
    let session : Session := ⟨9223372036854775807, ⟨-9223372036854775808⟩, "ä\t", "::1", first, last⟩
    let home : Namespace := ⟨⟨-1⟩, 9223372036854775807, .organisation, "\"a\\b\"\n\x01"⟩
    let report : HealthReport := ⟨.unhealthy, "", 18446744073709551615, false⟩
    let settings : Settings := {
      network := { port := 65535, origins := ["", "https://a.example"] }
      store := { connections := 4294967295 }
      session := { days := -9223372036854775808 } }
    let user : User := {
      Gatehouse.User.blank with
      passwordHash := "$argon2id$"
      namespaceId := some ⟨9223372036854775807⟩
      createdAt := first
      deletedAt := some last
      lastLoginIp := some "" }
    (session.Fits ∧ readText Session.reader session.toJson.text.toList = .ok session) ∧
      (home.Fits ∧ readText Namespace.reader home.toJson.text.toList = .ok home) ∧
      (report.uptimeSeconds < Nat.pow 2 64 ∧ readText HealthReport.reader report.toJson.text.toList = .ok report) ∧
      (settings.Fits ∧ readText Settings.reader settings.toJson.text.toList = .ok settings) ∧
      (user.Fits ∧ readText User.reader user.toJson.text.toList = .ok { user with passwordHash := "" }) := by
  intro first last session home report settings user
  have on_first : first.OnCalendar := ⟨by decide, by decide, by decide⟩
  have on_last : last.OnCalendar := ⟨by decide, by decide, by decide⟩
  have fits_session : session.Fits := ⟨by decide, by decide, on_first, on_last⟩
  have fits_home : home.Fits := ⟨by decide, by decide⟩
  have fits_report : report.uptimeSeconds < Nat.pow 2 64 := by decide
  have fits_settings : settings.Fits := ⟨by decide, by decide, by decide⟩
  have fits_user : user.Fits := by
    refine ⟨by decide, ?_, on_first, ?_, ?_, ?_⟩
    · rintro _ ⟨⟩
      decide
    · rintro _ ⟨⟩
      exact on_last
    · rintro _ ⟨⟩
    · rintro _ ⟨⟩
  obtain ⟨sessions, namespaces, -, -, reports, all_settings, users⟩ := records_read_back
  exact ⟨⟨fits_session, sessions session fits_session⟩, ⟨fits_home, namespaces home fits_home⟩,
    ⟨fits_report, reports report fits_report⟩, ⟨fits_settings, all_settings settings fits_settings⟩,
    fits_user, (users user).2 fits_user⟩

end Gatehouse
