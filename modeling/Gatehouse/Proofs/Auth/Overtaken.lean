import Gatehouse.Proofs.Auth.Lifetimes
import Gatehouse.Proofs.Auth.Traffic
import Mathlib.Logic.Relation

/-! # Logins that are overtaken

A login looks at the account in its first step and opens a session in its second, and between the two any
other requests may make their steps. What the first step has found stays true, the name, the hash and that the
account is verified, except for one thing: the account may have been deleted. The second step does not ask for
that. It notes the login and stores the session all the same, and the token it answers with leads to nobody.
-/

namespace Gatehouse.Store

/-- A verified user is read from its row as before, whatever has become of it. -/
theorem UserRow.ReadAs.of_becomes {r r' : UserRow} {user : User} (h : r.ReadAs user) (became : r.Becomes r')
    (verified : r.verifiedAt ≠ none) : r'.ReadAs user where
  id := by rw [h.id, became.id]
  username := by rw [h.username, became.username]
  email := by rw [h.email, became.email]
  name := by rw [h.name, became.name]
  passwordHash := by rw [h.passwordHash, became.passwordHash]
  publicEmail := by rw [h.publicEmail, became.publicEmail]
  isAdmin := by rw [h.isAdmin, became.isAdmin]
  isVerified := by rw [h.isVerified, became.verifiedAt verified]

end Gatehouse.Store

namespace Gatehouse.Auth

open Relation (ReflTransGen)
open Gatehouse.Store Gatehouse.Text Gatehouse.Time

namespace Service

variable {service : Service} {names : TableNames} {t t' : Traffic}

/-! ## Users while steps are made -/

theorem begin_store (service : Service) (now : Instant) (request : Request) (db : Database) :
    (service.begin now request db).2 = db ∨ ∃ o : Operation, (service.begin now request db).2 = o.after db := by
  cases request with
  | register r clientIp =>
      rw [begin]
      cases permit r db <;> exact Or.inl rfl
  | signIn login clientIp =>
      rw [begin]
      cases service.credentials login db <;> exact Or.inl rfl
  | activate id =>
      rw [begin]
      cases findAccount id db <;> exact Or.inl rfl
  | authenticate token => exact Or.inl rfl
  | softDelete id => exact Or.inr ⟨.softDelete now id, rfl⟩

/-- A second step makes one operation, whether it is refused or not. -/
theorem finish_store {draw : Draw} {rest : Pending} {db db' : Database} {answer : Answer}
    (done : service.finish draw rest db = some (answer, db')) : ∃ o : Operation, db' = o.after db := by
  cases rest with
  | register r clientIp =>
      cases done
      exact ⟨.commitRegistration draw.now (service.newUser draw.salt r clientIp) r.storedUsername, rfl⟩
  | signIn login clientIp user =>
      obtain ⟨draft, _, opened⟩ := Option.map_eq_some_iff.mp done
      cases opened
      exact ⟨.commitLogin draw.noted user.id clientIp (draft.toSession user.id clientIp), rfl⟩
  | activate id =>
      cases done
      exact ⟨.activate draw.now id, rfl⟩

theorem sound_of_finish {draw : Draw} {rest : Pending} {db db' : Database} {answer : Answer} (h : db.Sound)
    (done : service.finish draw rest db = some (answer, db')) : db'.Sound := by
  obtain ⟨o, rfl⟩ := finish_store done
  exact h.after o

theorem Step.store (step : service.Step t t') :
    t'.journal.db = t.journal.db ∨ ∃ o : Operation, t'.journal.db = o.after t.journal.db := by
  cases step with
  | answer request dated done =>
      rename_i now answer db
      have left := service.begin_store now request t.journal.db
      rwa [done] at left
  | wait request dated goesOn =>
      rename_i now rest db
      have left := service.begin_store now request t.journal.db
      rwa [goesOn] at left
  | finish earlier later waiting dated fresh done => exact Or.inr (finish_store done)

theorem steps_users_grow (steps : ReflTransGen service.Step t t') :
    t.journal.db.users.Grows UserRow.Becomes (fun _ => True) t'.journal.db.users := by
  induction steps with
  | refl => exact Table.grows_refl UserRow.Becomes.refl _
  | tail _ step ih =>
      refine ih.comp ?_ (fun _ _ _ => UserRow.Becomes.trans) (fun _ _ _ _ => trivial) fun _ h => h
      rcases step.store with same | ⟨o, made⟩
      · rw [same]
        exact Table.grows_refl UserRow.Becomes.refl _
      · rw [made]
        exact (o.users_grow _).imp (fun _ _ turned => turned.becomes) fun _ _ => trivial

/-! ## The two steps of a login -/

theorem credentials_of_begin {now : Instant} {request : Request} {db db' : Database} {login : LoginRequest}
    {clientIp : String} {user : User}
    (goesOn : service.begin now request db = (.pending (.signIn login clientIp user), db')) :
    service.credentials login db = .ok user := by
  cases request with
  | register r clientIp =>
      rw [begin] at goesOn
      split at goesOn <;> cases goesOn
  | signIn login' clientIp' =>
      rw [begin] at goesOn
      split at goesOn
      · cases goesOn
      · rename_i passed
        cases goesOn
        exact passed
  | activate id =>
      rw [begin] at goesOn
      split at goesOn <;> cases goesOn
  | authenticate token => cases goesOn
  | softDelete id => cases goesOn

/-- A login that is in flight has passed its first step at an earlier moment. -/
theorem Reaches.lookup (reached : service.Reaches names t) {login : LoginRequest} {clientIp : String} {user : User}
    (waiting : .signIn login clientIp user ∈ t.pending) : ∃ s, service.Reaches names s ∧
      ReflTransGen service.Step s t ∧ service.credentials login s.journal.db = .ok user := by
  induction reached with
  | start => cases waiting
  | step reached step ih =>
      rename_i t t'
      -- what waited before has been looked up before
      have before (waited : .signIn login clientIp user ∈ t.pending) : ∃ s, service.Reaches names s ∧
          ReflTransGen service.Step s t' ∧ service.credentials login s.journal.db = .ok user := by
        obtain ⟨s, hs, steps, passed⟩ := ih waited
        exact ⟨s, hs, steps.tail step, passed⟩
      cases step with
      | answer request dated done => exact before waiting
      | wait request dated goesOn =>
          rename_i now rest db
          rcases List.mem_append.mp waiting with waited | new
          · exact before waited
          · cases List.mem_singleton.mp new
            exact ⟨t, reached, .single (.wait t request dated goesOn), credentials_of_begin goesOn⟩
      | finish earlier later split_at dated fresh done =>
          rename_i rest draw answer db
          apply before
          rw [split_at]
          rcases List.mem_append.mp waiting with left | right
          · exact List.mem_append_left _ left
          · exact List.mem_append_right _ (List.mem_cons_of_mem _ right)

/-- The user of a login that is in flight has the row that the first step has found, and what is in it now. -/
theorem Reaches.row_of_signIn (reached : service.Reaches names t) {login : LoginRequest} {clientIp : String}
    {user : User} (waiting : .signIn login clientIp user ∈ t.pending) : ∃ s, service.Reaches names s ∧
      ReflTransGen service.Step s t ∧ ∃ v ∈ s.journal.db.users.rows, login.Names v ∧
        v.verifiedAt ≠ none ∧ Password.verify service.derive login.password v.passwordHash = .ok true ∧
          ∃ u ∈ t.journal.db.users.rows, v.Becomes u ∧ u.ReadAs user := by
  obtain ⟨s, hs, steps, passed⟩ := reached.lookup waiting
  obtain ⟨v, hv, named, verified, accepted, read⟩ := service.exists_of_credentials passed
  obtain ⟨u, hu, became⟩ := (steps_users_grow steps).mem hv
  exact ⟨s, hs, steps, v, hv, named, verified, accepted, u, hu, became,
    (UserRow.readAs_of_toUser read).of_becomes became verified⟩

theorem Reaches.read_of_signIn (reached : service.Reaches names t) {login : LoginRequest} {clientIp : String}
    {user : User} (waiting : .signIn login clientIp user ∈ t.pending) :
    ∃ u ∈ t.journal.db.users.rows, u.ReadAs user := by
  obtain ⟨_, _, _, _, _, _, _, _, u, hu, _, read⟩ := reached.row_of_signIn waiting
  exact ⟨u, hu, read⟩

/-- The second step asks for the expiry and the token only, and not for what has become of the user. -/
theorem finish_signIn {db : Database} (h : db.Sound) {u : UserRow} (hu : u ∈ db.users.rows) {user : User}
    (read : u.ReadAs user) (login : LoginRequest) (clientIp : String) (draw : Draw) :
    let outcome := service.finish draw (.signIn login clientIp user) db
    (∃ answer db', outcome = some (.signedIn (.ok answer), db') ∧
      service.SignsIn draw.now draw.noted draw.token clientIp db u db' answer) ∨
    (service.policy.expiry? draw.now = none ∧ outcome = none) ∨
    ((∃ s ∈ db.sessions.rows, s.token = draw.token) ∧
      outcome = some (.signedIn (.error (.store .tokenTaken)), db)) := by
  intro outcome
  have opened : outcome =
      ((Draft.issue? service.policy draw.now draw.token).map fun draft =>
        openSession draw.noted user draft clientIp db).map fun result => (.signedIn result.1, result.2) := by
    rw [Option.map_map]
    rfl
  rcases service.issued_cases h hu read draw.now draw.noted draw.token clientIp with
    ⟨answer, db', issued, signsIn⟩ | ⟨never, issued⟩ | ⟨used, issued⟩
  · exact Or.inl ⟨answer, db', by rw [opened, issued]; rfl, signsIn⟩
  · exact Or.inr (Or.inl ⟨never, by rw [opened, issued]; rfl⟩)
  · exact Or.inr (Or.inr ⟨used, by rw [opened, issued]; rfl⟩)

/-- Whatever has become of its user, a login in flight is answered with a session if its token is new. -/
theorem Reaches.answers (reached : service.Reaches names t) {login : LoginRequest} {clientIp : String} {user : User}
    (waiting : .signIn login clientIp user ∈ t.pending) (draw : Draw)
    (fresh : ∀ s ∈ t.journal.db.sessions.rows, s.token ≠ draw.token)
    (expires : service.policy.expiry? draw.now ≠ none) : ∃ answer db',
      service.finish draw (.signIn login clientIp user) t.journal.db = some (.signedIn (.ok answer), db') := by
  have sound := (Traffic.Coherent.of_reaches reached).housed.sound
  obtain ⟨u, hu, read⟩ := reached.read_of_signIn waiting
  rcases finish_signIn sound hu read login clientIp draw with ⟨answer, db', made, _⟩ | ⟨never, _⟩ | ⟨⟨s, hs, used⟩, _⟩
  · exact ⟨answer, db', made⟩
  · exact absurd never expires
  · exact absurd used (fresh s hs)

/-- An answer with a session is given by a second step that has opened it. -/
theorem signsIn_of_finish {db : Database} (h : db.Sound) {u : UserRow} (hu : u ∈ db.users.rows) {user : User}
    (read : u.ReadAs user) {login : LoginRequest} {clientIp : String} {draw : Draw} {answer : LoginAnswer}
    {db' : Database}
    (done : service.finish draw (.signIn login clientIp user) db = some (.signedIn (.ok answer), db')) :
    service.SignsIn draw.now draw.noted draw.token clientIp db u db' answer := by
  rcases finish_signIn h hu read login clientIp draw with ⟨_, _, made, signsIn⟩ | ⟨_, unanswered⟩ | ⟨_, refused⟩
  · cases done.symm.trans made
    exact signsIn
  · cases done.symm.trans unanswered
  · cases done.symm.trans refused

/--
A login that is answered with a session has found, at some earlier moment, an account that was not deleted, was
verified and had the password. Whatever was done in between, the session is that of this account and the login
is noted in its row, whether it is still there or not. If it is, the token leads to it until the session expires,
which it has from the first if the year of its expiry has a sign. If the account was deleted in between, the
token leads to nobody.
-/
theorem signIn_overtaken (reached : service.Reaches names t) {login : LoginRequest} {clientIp : String}
    {user : User} (waiting : .signIn login clientIp user ∈ t.pending) {draw : Draw} (dated : draw.noted.Dated)
    {answer : LoginAnswer} {db' : Database}
    (done : service.finish draw (.signIn login clientIp user) t.journal.db = some (.signedIn (.ok answer), db')) :
    ∃ s, service.Reaches names s ∧ ReflTransGen service.Step s t ∧
      ∃ v ∈ s.journal.db.users.rows, login.Names v ∧ v.verifiedAt ≠ none ∧
        Password.verify service.derive login.password v.passwordHash = .ok true ∧
      ∃ u ∈ t.journal.db.users.rows, v.Becomes u ∧
        service.SignsIn draw.now draw.noted draw.token clientIp t.journal.db u db' answer ∧
        (u.isDeleted = false → draw.now.Proper → ∀ expiry, service.policy.expiry? draw.now = some expiry →
          expiry.Dated → ∀ x : Instant, x.Dated → x.Proper → x ≤ expiry →
            ∃ found, authenticate x answer.token db' = .ok found ∧ (u.loggedIn draw.noted clientIp).ReadAs found) ∧
        (u.isDeleted = true → ∀ x, authenticate x answer.token db' = .error .noSession) := by
  have coherent := Traffic.Coherent.of_reaches reached
  have sound := coherent.housed.sound
  obtain ⟨s, hs, steps, v, hv, named, verified, accepted, u, hu, became, read⟩ := reached.row_of_signIn waiting
  have signsIn := signsIn_of_finish sound hu read done
  have here : u.loggedIn draw.noted clientIp ∈ (db'.run []).users.rows :=
    (signsIn.mem_users_iff sound).mpr (Or.inl rfl)
  have sound' : (db'.run []).Sound := sound_of_finish sound done
  refine ⟨s, hs, steps, v, hv, named, verified, accepted, u, hu, became, signsIn, ?_, ?_⟩
  · intro undeleted proper expiry expires expiry_dated x today clock early
    have legible : (u.loggedIn draw.noted clientIp).Legible := (coherent.legible u hu).loggedIn dated clientIp
    exact signsIn.lasts expires expiry_dated proper sound' here rfl legible undeleted today clock early
  · intro gone x
    exact signsIn.shut_out sound' here rfl gone x

/-! ## Ada's login -/

/-- Ada has registered and her account is active. -/
def adaActive : Journal :=
  plain.after (Journal.start {})
    [⟨.register hasty "::1", ⟨.epoch, .epoch, oneToEight, ""⟩⟩, ⟨.activate ⟨1⟩, ⟨.epoch, .epoch, [], ""⟩⟩]

private theorem reaches_adaActive : plain.Reaches {} ⟨adaActive, []⟩ := by
  have epoch : Instant.epoch.Dated := by decide +kernel
  have registered := Reaches.call (c := ⟨.register hasty "::1", ⟨.epoch, .epoch, oneToEight, ""⟩⟩)
    (.start : plain.Reaches {} _) ⟨epoch, epoch⟩ (by decide +kernel)
  exact registered.call (c := ⟨.activate ⟨1⟩, ⟨.epoch, .epoch, [], ""⟩⟩) ⟨epoch, epoch⟩ (by decide +kernel)

/-- She logs in, and another request is made between the two steps. -/
private theorem answered_adaActive {c : Call} (dated : c.draw.Dated)
    (noSessions : (plain.call adaActive c).db.sessions.rows = []) :
    ∃ t user answer db', plain.Reaches {} t ∧ t.journal = plain.call adaActive c ∧
      .signIn ⟨"ada", "engine"⟩ "::1" user ∈ t.pending ∧
      plain.finish ⟨.epoch, .epoch, [], "token"⟩ (.signIn ⟨"ada", "engine"⟩ "::1" user) t.journal.db =
        some (.signedIn (.ok answer), db') := by
  have coherent := Traffic.Coherent.of_reaches reaches_adaActive
  obtain ⟨u, hu, named, verified, accepted⟩ : ∃ u ∈ adaActive.db.users.rows,
      LoginRequest.Names ⟨"ada", "engine"⟩ u ∧ u.verifiedAt ≠ none ∧
        (Password.verify plain.derive "engine" u.passwordHash).toOption = some true := by
    decide +kernel
  obtain ⟨user, _, passed⟩ := plain.credentials_of_names coherent.legible coherent.housed.sound hu named
  rw [if_neg verified, eq_ok_of_toOption accepted] at passed
  have goesOn : plain.begin .epoch (.signIn ⟨"ada", "engine"⟩ "::1") adaActive.db =
      (.pending (.signIn ⟨"ada", "engine"⟩ "::1" user), adaActive.db) := by
    rw [begin, passed]
  have waits := reaches_adaActive.step (.wait _ _ (by decide +kernel) goesOn)
  have none_yet : adaActive.db.sessions.rows = [] := by decide +kernel
  have overtaken := waits.call dated (by rw [none_yet]; simp)
  have waiting : Pending.signIn ⟨"ada", "engine"⟩ "::1" user ∈ [Pending.signIn ⟨"ada", "engine"⟩ "::1" user] :=
    List.mem_singleton_self _
  obtain ⟨answer, db', done⟩ := overtaken.answers waiting ⟨.epoch, .epoch, [], "token"⟩
    (by rw [noSessions]; simp) (by decide +kernel)
  exact ⟨_, user, answer, db', overtaken, rfl, waiting, done⟩

def graceRegisters : Call :=
  ⟨.register ⟨"grace@example.org", "grace", "Grace", "compiler", false⟩ "::2", ⟨.epoch, .epoch, oneToEight, ""⟩⟩

/-- If Grace registers between the two steps, Ada's token leads to Ada for thirty days. -/
theorem signIn_overtaken_graceRegisters : ∃ t user answer db', plain.Reaches {} t ∧
    .signIn ⟨"ada", "engine"⟩ "::1" user ∈ t.pending ∧
    plain.finish ⟨.epoch, .epoch, [], "token"⟩ (.signIn ⟨"ada", "engine"⟩ "::1" user) t.journal.db =
      some (.signedIn (.ok answer), db') ∧
    ∃ found, authenticate ⟨2592000, 0⟩ answer.token db' = .ok found ∧ found.id = ⟨1⟩ := by
  have dated : (Draw.mk .epoch .epoch [] "token").noted.Dated := by decide +kernel
  have dated' : graceRegisters.draw.Dated := by decide +kernel
  obtain ⟨t, user, answer, db', reached, same, waiting, done⟩ :=
    answered_adaActive (c := graceRegisters) dated' (by decide +kernel)
  have rows : ∀ r ∈ (plain.call adaActive graceRegisters).db.users.rows,
      r.isDeleted = false ∧ (LoginRequest.Names ⟨"ada", "engine"⟩ r → r.id = 1) := by
    decide +kernel
  obtain ⟨_, _, _, v, _, named, _, _, u, hu, became, _, lasts, _⟩ := signIn_overtaken reached waiting dated done
  rw [same] at hu
  obtain ⟨undeleted, only⟩ := rows u hu
  have expires : plain.policy.expiry? .epoch = some ⟨2592000, 0⟩ := by decide +kernel
  have proper : Instant.epoch.Proper := ⟨by decide, by decide⟩
  have aMonth : (⟨2592000, 0⟩ : Instant).Dated := by decide +kernel
  have aMonth' : (⟨2592000, 0⟩ : Instant).Proper := ⟨by decide, by decide⟩
  obtain ⟨found, answered, read⟩ := lasts undeleted proper _ expires aMonth _ aMonth aMonth' (Instant.le_refl _)
  have named' : LoginRequest.Names ⟨"ada", "engine"⟩ u :=
    LoginRequest.names_iff.mpr ⟨undeleted, (LoginRequest.names_iff.mp named).2.of_same became.toSame⟩
  refine ⟨t, user, answer, db', reached, waiting, done, found, answered, ?_⟩
  rw [read.id]
  exact congrArg UserId.mk (only named')

def adaGoes : Call :=
  ⟨.softDelete ⟨1⟩, ⟨.epoch, .epoch, [], ""⟩⟩

/--
If Ada's account is deleted between the two steps, she is answered with a session nevertheless: it is stored for
the account that is deleted, the login is noted in the row of that account, and the token leads to nobody.
-/
theorem session_of_nobody_adaGoes : ∃ t user answer db', plain.Reaches {} t ∧
    .signIn ⟨"ada", "engine"⟩ "::1" user ∈ t.pending ∧
    plain.finish ⟨.epoch, .epoch, [], "token"⟩ (.signIn ⟨"ada", "engine"⟩ "::1" user) t.journal.db =
      some (.signedIn (.ok answer), db') ∧
    (∀ u ∈ t.journal.db.users.rows, u.id = 1 ∧ u.isDeleted = true ∧ u.lastLoginIp = none) ∧
    t.journal.db.sessions.rows = [] ∧
    (∃ u ∈ db'.users.rows, u.id = 1 ∧ u.isDeleted = true ∧ u.lastLoginIp = some "::1") ∧
    (∃ s ∈ db'.sessions.rows, s.ownerId = 1 ∧ s.token = answer.token) ∧
    ∀ x, authenticate x answer.token db' = .error .noSession := by
  have none_yet : (plain.call adaActive adaGoes).db.sessions.rows = [] := by decide +kernel
  have rows : ∀ r ∈ (plain.call adaActive adaGoes).db.users.rows,
      r.id = 1 ∧ r.isDeleted = true ∧ r.lastLoginIp = none := by
    decide +kernel
  obtain ⟨t, user, answer, db', reached, same, waiting, done⟩ :=
    answered_adaActive (c := adaGoes) (by decide +kernel) none_yet
  have sound := (Traffic.Coherent.of_reaches reached).housed.sound
  obtain ⟨u, hu, read⟩ := reached.read_of_signIn waiting
  have signsIn := signsIn_of_finish sound hu read done
  have here : u.loggedIn .epoch "::1" ∈ (db'.run []).users.rows := (signsIn.mem_users_iff sound).mpr (Or.inl rfl)
  have sound' : (db'.run []).Sound := sound_of_finish sound done
  obtain ⟨expiry, expires, _, _⟩ := signsIn.sessions
  have stored := signsIn.stored expires []
  rw [← same] at none_yet rows
  obtain ⟨id, gone, _⟩ := rows u hu
  exact ⟨t, user, answer, db', reached, waiting, done, rows, none_yet, ⟨_, here, id, gone, rfl⟩,
    ⟨_, stored, id, rfl⟩, fun x => signsIn.shut_out sound' here rfl gone x⟩

end Service

end Gatehouse.Auth
