import Gatehouse.Proofs.Auth.Requests
import Gatehouse.Proofs.Store.History
import Gatehouse.Proofs.Time.Order

/-! # Who may log in

Of the undeleted users an identifier names one at most, and that user's row decides: first whether it is
verified, then what its hash says of the password. Deleted users of the same name and namespaces without an
account do not matter, and so nothing is asked of the store but that operations have led to it. A login that
is refused changes nothing; one that is answered with a session is told here in full.
-/

namespace Gatehouse.Auth

open Gatehouse.Store Gatehouse.Text Gatehouse.Time

/-- Whether a login names the user of a row: by the address if there is an at sign, else by the name. -/
def LoginRequest.Names (request : LoginRequest) (u : UserRow) : Prop :=
  u.isDeleted = false ∧
    if '@' ∈ request.identifier.toList then u.email = request.identifier
    else u.username = request.identifier

instance (request : LoginRequest) (u : UserRow) : Decidable (request.Names u) := by
  unfold LoginRequest.Names
  infer_instance

theorem Identifier.text_ofString (s : String) : (ofString s).text = s := by
  unfold ofString
  split <;> rfl

theorem LoginRequest.names_iff {request : LoginRequest} {u : UserRow} : request.Names u ↔
    u.isDeleted = false ∧ (Identifier.ofString request.identifier).Names u := by
  rw [LoginRequest.Names, Identifier.ofString]
  by_cases address : '@' ∈ request.identifier.toList
  · rw [if_pos address, if_pos (List.contains_iff_mem.mpr address)]
    rfl
  · rw [if_neg address, if_neg (mt List.contains_iff_mem.mp address)]
    rfl

/-- No two undeleted users have the name, and no two the address. -/
theorem LoginRequest.names_unique {db : Database} (h : db.Sound) {request : LoginRequest} {u v : UserRow}
    (hu : u ∈ db.users.rows) (hv : v ∈ db.users.rows) (names : request.Names u)
    (names' : request.Names v) : u = v := by
  obtain ⟨hud, named⟩ := names
  obtain ⟨hvd, named'⟩ := names'
  by_cases address : '@' ∈ request.identifier.toList
  · rw [if_pos address] at named named'
    exact h.emails u hu v hv hud hvd (named.trans named'.symm)
  · rw [if_neg address] at named named'
    exact h.usernames u hu v hv hud hvd (named.trans named'.symm)

/-- Off leap seconds a session expires its life time after it was made. -/
theorem SessionPolicy.expiry_eq {policy : SessionPolicy} {now expiry : Instant} (h : policy.expiry? now = some expiry)
    (ordinary : now.nanos < Instant.second) : expiry = ⟨now.seconds + policy.seconds, now.nanos⟩ := by
  rcases Instant.addDays?_cases h with ⟨-, rfl⟩ | ⟨leap, -⟩ | ⟨leap, -⟩
  · rfl
  · exact absurd ordinary (Nat.not_lt.mpr leap)
  · exact absurd ordinary (Nat.not_lt.mpr leap)

namespace Service

variable {db : Database} (service : Service) {request : LoginRequest} {u : UserRow}

/-! ## Credentials -/

theorem credentials_of_nobody (hl : db.Legible) (h : db.Ready)
    (nobody : ∀ u ∈ db.users.rows, ¬ request.Names u) :
    service.credentials request db = .error (.unknown request.identifier) := by
  obtain ⟨p, names, asked⟩ := userOf_eq db (Identifier.ofString request.identifier)
  obtain ⟨found, answered, none_iff⟩ := hl.userWhere h p
  have none_found : found = none := by
    apply none_iff.mpr
    intro r hr hd
    rw [← Bool.not_eq_true, names]
    exact fun named => nobody r hr (LoginRequest.names_iff.mpr ⟨hd, named⟩)
  rw [credentials, asked, answered, none_found]
  simp only [ok_mapError, ok_bind, Identifier.text_ofString]
  rfl

/-- The row that is named decides, and the user that is passed on has been read from it. -/
theorem credentials_of_names (hl : db.Legible) (h : db.Sound) (hu : u ∈ db.users.rows)
    (names : request.Names u) : ∃ user, u.ReadAs user ∧
      service.credentials request db =
        if u.verifiedAt = none then .error .notVerified
        else match Password.verify service.derive request.password u.passwordHash with
          | .error fault => .error (.password fault)
          | .ok false => .error .wrongPassword
          | .ok true => .ok user := by
  obtain ⟨p, named_iff, asked⟩ := userOf_eq db (Identifier.ofString request.identifier)
  obtain ⟨hd, named⟩ := LoginRequest.names_iff.mp names
  -- the query takes the first row that fits, so it is this one only because no other does
  have unique : ∀ s ∈ db.users.rows, s.isDeleted = false → p s = true → s = u := by
    intro s hs hsd hps
    have names' : request.Names s := LoginRequest.names_iff.mpr ⟨hsd, (named_iff s).mp hps⟩
    exact LoginRequest.names_unique h hs hu names' names
  obtain ⟨user, found, read⟩ := hl.userWhere_eq_some h.ready hu hd ((named_iff u).mpr named) unique
  refine ⟨user, read, ?_⟩
  rw [credentials, asked, found]
  simp only [ok_mapError, ok_bind, read.isVerified, read.passwordHash]
  cases u.verifiedAt with
  | none => rfl
  | some text => rfl

/-- Whatever the store, who passes has been read from the row of a verified user whom the login names. -/
theorem exists_of_credentials {user : User} (passed : service.credentials request db = .ok user) :
    ∃ u ∈ db.users.rows, request.Names u ∧ u.verifiedAt ≠ none ∧
      Password.verify service.derive request.password u.passwordHash = .ok true ∧ u.toUser = .ok user := by
  obtain ⟨u, hu, hd, named, read, verified, accepted⟩ := service.read_of_credentials passed
  have readAs := UserRow.readAs_of_toUser read
  rw [readAs.isVerified] at verified
  rw [readAs.passwordHash] at accepted
  exact ⟨u, hu, LoginRequest.names_iff.mpr ⟨hd, named⟩, Option.isSome_iff_ne_none.mp verified, accepted, read⟩

/-! ## Sessions -/

/-- A login of the user of a row has been answered with a session. -/
structure SignsIn (now noted : Instant) (token clientIp : String) (db : Database) (u : UserRow)
    (db' : Database) (answer : LoginAnswer) : Prop where
  /-- The login is noted in the row of the user, and the other rows stand around it as before. -/
  users : ∃ earlier later, db.users.rows = earlier ++ u :: later ∧
    db'.users.rows = earlier ++ u.loggedIn noted clientIp :: later
  /-- There is one session more. -/
  sessions : ∃ expiry, service.policy.expiry? now = some expiry ∧
    (now.nanos < Instant.second → expiry = ⟨now.seconds + service.policy.seconds, now.nanos⟩) ∧
    db'.sessions.rows = db.sessions.rows ++
      [⟨db.sessions.nextKey, u.id, token, clientIp, Rfc3339.storedText now, Rfc3339.storedText expiry⟩]
  unused : ∀ s ∈ db.sessions.rows, s.token ≠ token
  namespaces : db'.namespaces = db.namespaces
  token : answer.token = token
  path : ∀ path, answer.path = some path ↔ ∃ n ∈ db.namespaces.rows,
    n.ownerId = u.id ∧ n.ownerType = OwnerKind.user.code ∧ n.path = path
  name : answer.name = u.name
  email : answer.email = u.email
  publicEmail : answer.publicEmail = (u.publicEmail != 0)

/-- The namespace of an owner is the only one filed under it. -/
theorem path_of_owner (h : db.Sound) (owner : Int) (path : String) :
    (db.namespaces.find? fun n => n.ownedBy owner .user).map (·.path) = some path ↔
      ∃ n ∈ db.namespaces.rows, n.ownerId = owner ∧ n.ownerType = OwnerKind.user.code ∧ n.path = path := by
  constructor
  · intro found
    obtain ⟨n, hf, hp⟩ := Option.map_eq_some_iff.mp found
    have owned := List.find?_some hf
    obtain ⟨ho, hk⟩ := NamespaceRow.ownedBy_eq_true.mp owned
    exact ⟨n, List.mem_of_find?_eq_some hf, ho, hk, hp⟩
  · rintro ⟨n, hn, ho, hk, hp⟩
    have found : db.namespaces.find? (fun n => n.ownedBy owner .user) = some n := by
      apply Table.find?_eq_some_of_unique hn (NamespaceRow.ownedBy_eq_true.mpr ⟨ho, hk⟩)
      intro m hm owned
      obtain ⟨ho', hk'⟩ := NamespaceRow.ownedBy_eq_true.mp owned
      exact h.owners m hm n hn trivial trivial (Prod.ext (ho'.trans ho.symm) (hk'.trans hk.symm))
    rw [found, Option.map_some, hp]

theorem signsIn_withLogin (h : db.Sound) (hu : u ∈ db.users.rows) {user : User} (read : u.ReadAs user)
    {now noted expiry : Instant} {token clientIp : String} (expires : service.policy.expiry? now = some expiry)
    (unused : ∀ s ∈ db.sessions.rows, s.token ≠ token) :
    service.SignsIn now noted token clientIp db u
      (db.withLogin noted user.id clientIp (Draft.toSession ⟨token, now, expiry⟩ user.id clientIp))
      (loginAnswer db user ⟨token, now, expiry⟩) where
  users := by
    obtain ⟨earlier, later, rows_eq, changed⟩ := h.modifyUser_eq hu (UserRow.loggedIn noted clientIp)
    refine ⟨earlier, later, rows_eq, ?_⟩
    rw [Database.withLogin, read.id]
    exact congrArg Table.rows changed
  sessions := by
    refine ⟨expiry, expires, SessionPolicy.expiry_eq expires, ?_⟩
    rw [Database.withLogin, Table.append_rows, read.id]
    rfl
  unused := unused
  namespaces := rfl
  token := rfl
  path := by
    intro path
    rw [loginAnswer, read.id]
    exact path_of_owner h u.id path
  name := read.name
  email := read.email
  publicEmail := read.publicEmail

/-- Of the users afterwards one is the one who has logged in, and the others are those of before. -/
theorem SignsIn.mem_users_iff {service : Service} {now noted : Instant} {token clientIp : String} {db' : Database}
    {answer : LoginAnswer} (signsIn : service.SignsIn now noted token clientIp db u db' answer) (h : db.Sound)
    {r : UserRow} :
    r ∈ db'.users.rows ↔ r = u.loggedIn noted clientIp ∨ u.id ≠ r.id ∧ r ∈ db.users.rows := by
  obtain ⟨earlier, later, rows_eq, rows_eq'⟩ := signsIn.users
  obtain ⟨before, behind⟩ := h.users_ordered.key_ne_of_rows_eq rows_eq
  rw [rows_eq, rows_eq']
  simp only [List.mem_append, List.mem_cons]
  constructor
  · rintro (hr | rfl | hr)
    · exact Or.inr ⟨(before r hr).symm, Or.inl hr⟩
    · exact Or.inl rfl
    · exact Or.inr ⟨(behind r hr).symm, Or.inr (Or.inr hr)⟩
  · rintro (rfl | ⟨other, hr | rfl | hr⟩)
    · exact Or.inr (Or.inl rfl)
    · exact Or.inl hr
    · exact absurd rfl other
    · exact Or.inr (Or.inr hr)

/-- For a user whose row is there a session is opened, unless its expiry or its token fails. -/
theorem issued_cases (h : db.Sound) (hu : u ∈ db.users.rows) {user : User} (read : u.ReadAs user)
    (now noted : Instant) (token clientIp : String) :
    let outcome := (Draft.issue? service.policy now token).map fun draft => openSession noted user draft clientIp db
    (∃ answer db', outcome = some (.ok answer, db') ∧ service.SignsIn now noted token clientIp db u db' answer) ∨
    (service.policy.expiry? now = none ∧ outcome = none) ∨
    ((∃ s ∈ db.sessions.rows, s.token = token) ∧ outcome = some (.error (.store .tokenTaken), db)) := by
  have there : ∃ r ∈ db.users.rows, r.id = user.id.number := ⟨u, hu, by rw [read.id]⟩
  simp only [Draft.issue?]
  cases expires : service.policy.expiry? now with
  | none => exact Or.inr (Or.inl ⟨rfl, rfl⟩)
  | some expiry =>
      simp only [Option.map_some]
      by_cases used : ∃ s ∈ db.sessions.rows, s.token = token
      · rw [openSession_of_used h.ready there used]
        exact Or.inr (Or.inr ⟨used, rfl⟩)
      · have unused : ∀ s ∈ db.sessions.rows, s.token ≠ token := fun s hs he => used ⟨s, hs, he⟩
        rw [openSession_of_unused h.ready there unused]
        exact Or.inl ⟨_, _, rfl, service.signsIn_withLogin h hu read expires unused⟩

/-- With the right password a login is answered with a session, unless its expiry or its token fails. -/
theorem signIn_of_credentials (h : db.Sound) (hu : u ∈ db.users.rows) {user : User} (read : u.ReadAs user)
    (passed : service.credentials request db = .ok user) (now noted : Instant) (token clientIp : String) :
    (∃ answer db', service.signIn now noted token request clientIp db = some (.ok answer, db') ∧
      service.SignsIn now noted token clientIp db u db' answer) ∨
    (service.policy.expiry? now = none ∧ service.signIn now noted token request clientIp db = none) ∨
    ((∃ s ∈ db.sessions.rows, s.token = token) ∧
      service.signIn now noted token request clientIp db = some (.error (.store .tokenTaken), db)) := by
  rw [signIn, passed]
  exact service.issued_cases h hu read now noted token clientIp

theorem signIn_of_refused {e : Error} (refused : service.credentials request db = .error e)
    (now noted : Instant) (token clientIp : String) :
    service.signIn now noted token request clientIp db = some (.error e, db) := by
  rw [signIn, refused]

/-- Only a user who is there, verified and has the password is answered with a session. -/
theorem signsIn_of_answered (h : db.Sound) {now noted : Instant} {token clientIp : String} {answer : LoginAnswer}
    {db' : Database} (answered : service.signIn now noted token request clientIp db = some (.ok answer, db')) :
    ∃ u ∈ db.users.rows, request.Names u ∧ u.verifiedAt ≠ none ∧
      Password.verify service.derive request.password u.passwordHash = .ok true ∧ u.Legible ∧
      service.SignsIn now noted token clientIp db u db' answer := by
  cases passed : service.credentials request db with
  | error e =>
      rw [service.signIn_of_refused passed now noted token clientIp] at answered
      cases answered
  | ok user =>
      obtain ⟨u, hu, names, verified, accepted, read⟩ := service.exists_of_credentials passed
      refine ⟨u, hu, names, verified, accepted, UserRow.legible_of_toUser read, ?_⟩
      rcases service.signIn_of_credentials h hu (UserRow.readAs_of_toUser read) passed now noted token clientIp with
        ⟨answer', db'', made, signsIn⟩ | ⟨_, unanswered⟩ | ⟨_, refused⟩
      · cases answered.symm.trans made
        exact signsIn
      · cases answered.symm.trans unanswered
      · cases answered.symm.trans refused

/-! ## The whole decision -/

/-- The row that is named decides how a login ends. -/
theorem signIn_of_names (hl : db.Legible) (h : db.Sound) (hu : u ∈ db.users.rows)
    (names : request.Names u) (now noted : Instant) (token clientIp : String) :
    let outcome := service.signIn now noted token request clientIp db
    let verdict := Password.verify service.derive request.password u.passwordHash
    (u.verifiedAt = none → outcome = some (.error .notVerified, db)) ∧
    (u.verifiedAt ≠ none → ∀ fault, verdict = .error fault → outcome = some (.error (.password fault), db)) ∧
    (u.verifiedAt ≠ none → verdict = .ok false → outcome = some (.error .wrongPassword, db)) ∧
    (u.verifiedAt ≠ none → verdict = .ok true →
      (∃ answer db', outcome = some (.ok answer, db') ∧
        service.SignsIn now noted token clientIp db u db' answer) ∨
      (service.policy.expiry? now = none ∧ outcome = none) ∨
      ((∃ s ∈ db.sessions.rows, s.token = token) ∧ outcome = some (.error (.store .tokenTaken), db))) := by
  intro outcome verdict
  have verdict_eq : Password.verify service.derive request.password u.passwordHash = verdict := rfl
  obtain ⟨user, read, decided⟩ := service.credentials_of_names hl h hu names
  refine ⟨?_, ?_, ?_, ?_⟩
  · intro unverified
    rw [if_pos unverified] at decided
    exact service.signIn_of_refused decided now noted token clientIp
  · intro verified fault failed
    rw [if_neg verified, verdict_eq, failed] at decided
    exact service.signIn_of_refused decided now noted token clientIp
  · intro verified wrong
    rw [if_neg verified, verdict_eq, wrong] at decided
    exact service.signIn_of_refused decided now noted token clientIp
  · intro verified right
    rw [if_neg verified, verdict_eq, right] at decided
    exact service.signIn_of_credentials h hu read decided now noted token clientIp

/-- A login is refused and nothing is changed, or it is not answered, or it is answered with a session. -/
theorem signIn_cases (hl : db.Legible) (h : db.Sound) (request : LoginRequest) (now noted : Instant)
    (token clientIp : String) :
    (∃ e, service.signIn now noted token request clientIp db = some (.error e, db)) ∨
      service.signIn now noted token request clientIp db = none ∨
      ∃ u ∈ db.users.rows, request.Names u ∧ u.verifiedAt ≠ none ∧
        Password.verify service.derive request.password u.passwordHash = .ok true ∧
        ∃ answer db', service.signIn now noted token request clientIp db = some (.ok answer, db') ∧
          service.SignsIn now noted token clientIp db u db' answer := by
  by_cases named : ∃ u ∈ db.users.rows, request.Names u
  · obtain ⟨u, hu, names⟩ := named
    obtain ⟨unverified, failed, wrong, right⟩ := service.signIn_of_names hl h hu names now noted token clientIp
    by_cases hv : u.verifiedAt = none
    · exact Or.inl ⟨_, unverified hv⟩
    · cases verdict : Password.verify service.derive request.password u.passwordHash with
      | error fault => exact Or.inl ⟨_, failed hv fault verdict⟩
      | ok accepted =>
          cases accepted with
          | false => exact Or.inl ⟨_, wrong hv verdict⟩
          | true =>
              rcases right hv verdict with ⟨answer, db', made, signsIn⟩ | ⟨_, unanswered⟩ | ⟨_, refused⟩
              · exact Or.inr (Or.inr ⟨u, hu, names, hv, verdict, answer, db', made, signsIn⟩)
              · exact Or.inr (Or.inl unanswered)
              · exact Or.inl ⟨_, refused⟩
  · have nobody : ∀ u ∈ db.users.rows, ¬ request.Names u := fun u hu names => named ⟨u, hu, names⟩
    have refused := service.credentials_of_nobody hl h.ready nobody
    exact Or.inl ⟨_, service.signIn_of_refused refused now noted token clientIp⟩

/--
After any operations a login is decided by the undeleted user whom its identifier names, of whom there is one
at most. Unless it is answered with a session the store stays as it is. If it is, the session is new and
belongs to that user, the login is noted in the row of the user, and nothing else has changed.
-/
theorem signIn_run (service : Service) (names : TableNames) {operations : List Operation}
    (dated : ∀ o ∈ operations, o.Dated) (request : LoginRequest) (now noted : Instant) (token clientIp : String) :
    let db := (Database.empty names).run operations
    let outcome := service.signIn now noted token request clientIp db
    let verdict (u : UserRow) := Password.verify service.derive request.password u.passwordHash
    (∀ u ∈ db.users.rows, ∀ v ∈ db.users.rows, request.Names u → request.Names v → u = v) ∧
    ((∀ u ∈ db.users.rows, ¬ request.Names u) →
      outcome = some (.error (.unknown request.identifier), db)) ∧
    (∀ u ∈ db.users.rows, request.Names u →
      (u.verifiedAt = none → outcome = some (.error .notVerified, db)) ∧
      (u.verifiedAt ≠ none →
        ∀ fault, verdict u = .error fault → outcome = some (.error (.password fault), db)) ∧
      (u.verifiedAt ≠ none → verdict u = .ok false → outcome = some (.error .wrongPassword, db)) ∧
      (u.verifiedAt ≠ none → verdict u = .ok true → service.policy.expiry? now ≠ none →
        (∀ s ∈ db.sessions.rows, s.token ≠ token) → ∃ answer db', outcome = some (.ok answer, db'))) ∧
    (∀ e db', outcome = some (.error e, db') → db' = db) ∧
    ∀ answer db', outcome = some (.ok answer, db') → ∃ u ∈ db.users.rows, request.Names u ∧
      u.verifiedAt ≠ none ∧ verdict u = .ok true ∧ service.SignsIn now noted token clientIp db u db' answer := by
  intro db outcome verdict
  have sound : db.Sound := ((Database.Reachable.empty names).run operations).sound
  have legible : db.Legible := (Database.legible_empty names).run dated
  have decided := signIn_cases service legible sound request now noted token clientIp
  refine ⟨fun u hu v hv => LoginRequest.names_unique sound hu hv, ?_, ?_, ?_, ?_⟩
  · intro nobody
    have refused := service.credentials_of_nobody legible sound.ready nobody
    exact service.signIn_of_refused refused now noted token clientIp
  · intro u hu named
    obtain ⟨unverified, failed, wrong, right⟩ :=
      service.signIn_of_names legible sound hu named now noted token clientIp
    refine ⟨unverified, failed, wrong, ?_⟩
    intro verified accepted expires unused
    rcases right verified accepted with ⟨answer, db', made, _⟩ | ⟨never, _⟩ | ⟨⟨s, hs, used⟩, _⟩
    · exact ⟨answer, db', made⟩
    · exact absurd never expires
    · exact absurd used (unused s hs)
  · intro e db' refused
    rcases decided with ⟨e', same⟩ | unanswered | ⟨_, _, _, _, _, answer, db'', made, _⟩
    · cases refused.symm.trans same
      rfl
    · cases refused.symm.trans unanswered
    · cases refused.symm.trans made
  · intro answer db' made
    rcases decided with ⟨e, refused⟩ | unanswered | ⟨u, hu, named, verified, accepted, _, _, same, signsIn⟩
    · cases made.symm.trans refused
    · cases made.symm.trans unanswered
    · cases made.symm.trans same
      exact ⟨u, hu, named, verified, accepted, signsIn⟩

/-- A service whose tags are the passwords themselves, filled up to the length asked for. -/
def plain : Service :=
  ⟨.standard, fun job => (job.password ++ List.replicate job.length 0).take job.length, usualBinds⟩

def oneToEight : List UInt8 :=
  [1, 2, 3, 4, 5, 6, 7, 8]

/-- Ada has been deleted and has come back with another password, and someone's namespace has no user. -/
def adaTwice : List Operation :=
  [.commitRegistration .epoch (plain.newUser oneToEight ⟨"ada@example.org", "ada", "Ada", "engine", true⟩ "::1") "ada",
    .activate .epoch ⟨1⟩,
    .softDelete .epoch ⟨1⟩,
    .createNamespace ⟨7, .user, "orphan"⟩,
    .commitRegistration .epoch (plain.newUser oneToEight ⟨"ada@example.org", "ada", "Ada", "loom", true⟩ "::1") "ada",
    .activate .epoch ⟨2⟩]

/-- She logs in with the password that she has now, and not with the one that she had. -/
theorem signIn_run_adaTwice :
    (∀ o ∈ adaTwice, o.Dated) ∧
      (∃ answer db', plain.signIn .epoch ⟨1, 0⟩ "token" ⟨"ada", "loom"⟩ "::1" ((Database.empty {}).run adaTwice) =
        some (.ok answer, db')) ∧
      plain.signIn .epoch ⟨1, 0⟩ "token" ⟨"ada@example.org", "engine"⟩ "::1" ((Database.empty {}).run adaTwice) =
        some (.error .wrongPassword, (Database.empty {}).run adaTwice) := by
  have dated : ∀ o ∈ adaTwice, o.Dated := by decide +kernel
  obtain ⟨u, hu, named, addressed, verified, right, wrong⟩ :
      ∃ u ∈ ((Database.empty {}).run adaTwice).users.rows,
        LoginRequest.Names ⟨"ada", "loom"⟩ u ∧ LoginRequest.Names ⟨"ada@example.org", "engine"⟩ u ∧
          u.verifiedAt ≠ none ∧ (Password.verify plain.derive "loom" u.passwordHash).toOption = some true ∧
            (Password.verify plain.derive "engine" u.passwordHash).toOption = some false := by
    decide +kernel
  obtain ⟨_, _, with_loom, _⟩ := signIn_run plain {} dated ⟨"ada", "loom"⟩ .epoch ⟨1, 0⟩ "token" "::1"
  obtain ⟨_, _, with_engine, _⟩ :=
    signIn_run plain {} dated ⟨"ada@example.org", "engine"⟩ .epoch ⟨1, 0⟩ "token" "::1"
  refine ⟨dated, ?_, ?_⟩
  · exact (with_loom u hu named).2.2.2 verified (eq_ok_of_toOption right) (by decide +kernel) (by decide +kernel)
  · exact (with_engine u hu addressed).2.2.1 verified (eq_ok_of_toOption wrong)

end Service

end Gatehouse.Auth
