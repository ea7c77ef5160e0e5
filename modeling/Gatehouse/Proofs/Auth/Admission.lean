import Gatehouse.Proofs.Auth.Registering
import Gatehouse.Proofs.Auth.SigningIn
import Gatehouse.Proofs.Auth.Writes

/-! # From a registration to a login

What a registration stores is what a login looks for: the address has an at sign and the name has none, so
each of them names the new user. No request of anybody else changes that. Once its activation has been asked
for, and unless its deletion has, the user logs in with either and with the password that it registered with.
-/

namespace Gatehouse.Auth

open Gatehouse.Store Gatehouse.Text Gatehouse.Time

variable {r : Registration}

/-- A row holds what a registration has stored, with a hash for its password. -/
structure Registration.StoredAs (r : Registration) (hash : String) (row : UserRow) : Prop where
  email : row.email = r.storedEmail
  username : row.username = r.storedUsername
  name : row.name = r.displayName
  passwordHash : row.passwordHash = hash
  publicEmail : row.publicEmail = if r.publicEmail then 1 else 0

theorem Registration.StoredAs.of_becomes {hash : String} {row u : UserRow} (h : r.StoredAs hash row)
    (became : row.Becomes u) : r.StoredAs hash u where
  email := became.email.trans h.email
  username := became.username.trans h.username
  name := became.name.trans h.name
  passwordHash := became.passwordHash.trans h.passwordHash
  publicEmail := became.publicEmail.trans h.publicEmail

theorem Registration.StoredAs.names (checked : r.check = .ok ()) {hash : String} {u : UserRow}
    (h : r.StoredAs hash u) (hd : u.isDeleted = false) {identifier : String}
    (known : identifier = r.storedEmail ∨ identifier = r.storedUsername) (password : String) :
    LoginRequest.Names ⟨identifier, password⟩ u := by
  have kept := Registration.check_eq_ok_iff.mp checked
  refine ⟨hd, ?_⟩
  rcases known with rfl | rfl
  · rw [if_pos kept.at_mem]
    exact h.email
  · rw [if_neg kept.at_not_mem]
    exact h.username

namespace Service

variable {service : Service} {db : Database}

theorem storedAs_of_registered (h : db.Housed) (legible : db.Legible) {now : Instant} {salt : List UInt8}
    {clientIp : String} {account : UserWithNamespace}
    (registered : (service.register now salt r clientIp db).1 = .ok account) :
    r.check = .ok () ∧ ∃ row ∈ (service.register now salt r clientIp db).2.users.rows,
      account.user.id = ⟨row.id⟩ ∧ r.StoredAs (Password.hash service.derive r.password salt) row ∧
        row.verifiedAt = none ∧ row.deletedAt = none := by
  rcases register_cases service h legible now salt r clientIp with
    ⟨why, hc, he⟩ | ⟨hc, free, he⟩ | ⟨hc, held, he⟩
  · rw [he] at registered
    cases registered
  · rw [he] at registered ⊢
    cases registered
    refine ⟨hc, _, Database.mem_withAccount_users.mpr (Or.inr rfl), rfl, ?_, rfl, rfl⟩
    exact ⟨rfl, rfl, Database.accountRow_name.trans (newUser_name service salt r clientIp), rfl, rfl⟩
  · rw [he] at registered
    cases registered

/-- Who has been verified and has the right password is told what the registration has stored. -/
theorem signIn_of_storedAs (h : db.Housed) (legible : db.Legible) (checked : r.check = .ok ()) {hash : String}
    {u : UserRow} (hu : u ∈ db.users.rows) (hd : u.isDeleted = false) (stored : r.StoredAs hash u)
    (accepts : Password.verify service.derive r.password hash = .ok true) {identifier : String}
    (known : identifier = r.storedEmail ∨ identifier = r.storedUsername) (now noted : Instant)
    (token clientIp : String) :
    let outcome := service.signIn now noted token ⟨identifier, r.password⟩ clientIp db
    (u.verifiedAt = none → outcome = some (.error .notVerified, db)) ∧
    (u.verifiedAt ≠ none → service.policy.expiry? now ≠ none → (∀ s ∈ db.sessions.rows, s.token ≠ token) →
      ∃ db', outcome =
          some (.ok ⟨token, some r.storedUsername, r.displayName, r.storedEmail, r.publicEmail⟩, db') ∧
        ∃ session, db'.sessions.rows = db.sessions.rows ++ [session] ∧
          session.ownerId = u.id ∧ session.token = token) := by
  intro outcome
  have named := stored.names checked hd known r.password
  have verdict : Password.verify service.derive r.password u.passwordHash = .ok true := by
    rw [stored.passwordHash]
    exact accepts
  obtain ⟨outside, _, _, inside⟩ := service.signIn_of_names legible h.sound hu named now noted token clientIp
  refine ⟨outside, ?_⟩
  intro verified expires unused
  rcases inside verified verdict with
    ⟨answer, db', made, signsIn⟩ | ⟨none_expires, _⟩ | ⟨⟨s, hs, used⟩, _⟩
  · have path : answer.path = some r.storedUsername := by
      obtain ⟨n, hn, _, hown, kind, hp⟩ := h.home hu hd
      exact (signsIn.path _).mpr ⟨n, hn, hown, kind, hp.trans stored.username⟩
    have publicEmail : answer.publicEmail = r.publicEmail := by
      rw [signsIn.publicEmail, stored.publicEmail]
      cases r.publicEmail <;> rfl
    have told : answer = ⟨token, some r.storedUsername, r.displayName, r.storedEmail, r.publicEmail⟩ := by
      obtain ⟨_, _, _, _, _⟩ := answer
      rw [LoginAnswer.mk.injEq]
      exact ⟨signsIn.token, path, signsIn.name.trans stored.name, signsIn.email.trans stored.email, publicEmail⟩
    obtain ⟨expiry, _, _, appended⟩ := signsIn.sessions
    refine ⟨db', ?_, _, appended, rfl, rfl⟩
    rw [← told]
    exact made
  · exact absurd none_expires expires
  · exact absurd used (unused s hs)

theorem verified_of_activate {j : Journal} (h : j.db.Housed) (legible : j.db.Legible) {u : UserRow}
    (hu : u ∈ j.db.users.rows) (hd : u.isDeleted = false) (draw : Draw) :
    ∃ u' ∈ (service.call j ⟨.activate ⟨u.id⟩, draw⟩).db.users.rows, u'.id = u.id ∧ u'.verifiedAt ≠ none := by
  obtain ⟨found, answered, none_iff⟩ := legible.userWhere h.sound.ready fun r => r.id = u.id
  have somebody : found ≠ none := by
    intro nobody
    have none_here := none_iff.mp nobody u hu hd
    simp at none_here
  have known : findAccount ⟨u.id⟩ j.db = .ok () := by
    obtain ⟨user, rfl⟩ := Option.ne_none_iff_exists'.mp somebody
    simp only [findAccount, Inquiry.ofQuery, Database.userById, answered]
    rfl
  have left : (service.call j ⟨.activate ⟨u.id⟩, draw⟩).db = j.db.withVerified draw.now ⟨u.id⟩ := by
    rw [call_activate, activate, known]
    simp only [verifyAccount_eq h.sound.ready]
  rw [left]
  refine ⟨_, Table.mem_modify.mpr ⟨u, hu, rfl⟩, ?_⟩
  by_cases awaits : u.awaits ⟨u.id⟩ = true
  · rw [if_pos awaits]
    exact ⟨rfl, Option.some_ne_none _⟩
  · rw [if_neg awaits]
    refine ⟨rfl, ?_⟩
    intro unverified
    simp [UserRow.awaits, unverified, hd] at awaits

section Kept

variable {j : Journal} {row : UserRow} {calls : List Call}

/-- A user whose deletion nobody asks for is verified in the end if its activation is asked for. -/
theorem verified_after (h : j.db.Housed) (legible : j.db.Legible) (hrow : row ∈ j.db.users.rows)
    (alive : row.deletedAt = none) (dated : ∀ c ∈ calls, c.draw.Dated)
    (kept : ∀ c ∈ calls, c.request ≠ .softDelete ⟨row.id⟩)
    (asked : ∃ c ∈ calls, c.request = .activate ⟨row.id⟩) :
    ∃ u ∈ (service.after j calls).db.users.rows, u.id = row.id ∧ u.verifiedAt ≠ none := by
  obtain ⟨c, hc, asked⟩ := asked
  -- the row is followed up to the activation, through it, and on to the end
  obtain ⟨before, behind, rfl⟩ := List.append_of_mem hc
  have dated_before : ∀ c ∈ before, c.draw.Dated := fun c hc => dated c (List.mem_append_left _ hc)
  have kept_before : ∀ c ∈ before, c.request ≠ .softDelete ⟨row.id⟩ :=
    fun c hc => kept c (List.mem_append_left _ hc)
  have housed : (service.after j before).db.Housed := housed_after h before
  have legible_before : (service.after j before).db.Legible := legible_after h legible dated_before
  obtain ⟨u₁, hu₁, left₁⟩ := (service.after_users_grow j before).mem hrow
  obtain ⟨u₂, hu₂, hid₂, verified⟩ :=
    verified_of_activate housed legible_before hu₁ (left₁.undeleted alive kept_before) c.draw
  have same_call : c = ⟨.activate ⟨u₁.id⟩, c.draw⟩ := by
    rw [left₁.id, ← asked]
  rw [← same_call] at hu₂
  obtain ⟨u₃, hu₃, left₃⟩ := (service.after_users_grow _ behind).mem hu₂
  refine ⟨u₃, ?_, left₃.id.trans (hid₂.trans left₁.id), ?_⟩
  · rw [after_append]
    exact hu₃
  · rw [left₃.verifiedAt verified]
    exact verified

/-- A user whose deletion nobody asks for is still there, and is verified once somebody asks for that. -/
theorem exists_after (h : j.db.Housed) (legible : j.db.Legible) (hrow : row ∈ j.db.users.rows)
    (alive : row.deletedAt = none) (dated : ∀ c ∈ calls, c.draw.Dated)
    (kept : ∀ c ∈ calls, c.request ≠ .softDelete ⟨row.id⟩) :
    ∃ u ∈ (service.after j calls).db.users.rows, row.Becomes u ∧ u.isDeleted = false ∧
      ((∀ c ∈ calls, c.request ≠ .activate ⟨row.id⟩) → u.verifiedAt = row.verifiedAt) ∧
      ((∃ c ∈ calls, c.request = .activate ⟨row.id⟩) → u.verifiedAt ≠ none) := by
  obtain ⟨u, hu, left⟩ := (service.after_users_grow j calls).mem hrow
  refine ⟨u, hu, left.toBecomes, left.undeleted alive kept, ?_, ?_⟩
  · intro never
    rcases left.activation with same | ⟨c, hc, asked⟩
    · exact same
    · exact absurd asked (never c hc)
  · intro asked
    have housed : (service.after j calls).db.Housed := housed_after h calls
    obtain ⟨v, hv, hid, verified⟩ := verified_after h legible hrow alive dated kept asked
    have same : v = u := housed.sound.users_ordered.eq_of_key_eq hv hu (hid.trans left.id.symm)
    rw [← same]
    exact verified

end Kept

/-- The row of a registration is there as it was stored, and is verified as soon as somebody asks for that. -/
theorem exists_after_registering {names : TableNames} {before more : List Call} {clientIp : String}
    {draw : Draw} {account : UserWithNamespace}
    (dated : ∀ c ∈ before ++ ⟨.register r clientIp, draw⟩ :: more, c.draw.Dated)
    (registered : (service.register draw.now draw.salt r clientIp
      (service.after (Journal.start names) before).db).1 = .ok account)
    (kept : ∀ c ∈ more, c.request ≠ .softDelete account.user.id) :
    r.check = .ok () ∧
      ∃ u ∈ (service.after (Journal.start names) (before ++ ⟨.register r clientIp, draw⟩ :: more)).db.users.rows,
        account.user.id = ⟨u.id⟩ ∧ r.StoredAs (Password.hash service.derive r.password draw.salt) u ∧
          u.isDeleted = false ∧
          ((∀ c ∈ more, c.request ≠ .activate account.user.id) → u.verifiedAt = none) ∧
          ((∃ c ∈ more, c.request = .activate account.user.id) → u.verifiedAt ≠ none) := by
  obtain ⟨j, hj⟩ : ∃ j, j = service.after (Journal.start names) before := ⟨_, rfl⟩
  have start := Journal.housed_start names
  have housed : j.db.Housed := by
    rw [hj]
    exact housed_after start before
  have legible : j.db.Legible := by
    rw [hj]
    exact legible_after start (Database.legible_empty names) fun c hc => dated c (List.mem_append_left _ hc)
  rw [← hj] at registered
  obtain ⟨checked, row, hrow, hid, stored, unverified, alive⟩ :=
    storedAs_of_registered housed legible registered
  -- the registration is a turn of the run, and the rest of the run comes after it
  have turn : service.Turn draw.now draw.noted j (service.call j ⟨.register r clientIp, draw⟩) :=
    turn_call housed ⟨.register r clientIp, draw⟩
  have whole : service.after (Journal.start names) (before ++ ⟨.register r clientIp, draw⟩ :: more) =
      service.after (service.call j ⟨.register r clientIp, draw⟩) more := by
    rw [after_append, ← hj]
    rfl
  have drawn : draw.Dated :=
    dated ⟨.register r clientIp, draw⟩ (List.mem_append_right _ List.mem_cons_self)
  rw [← call_register] at hrow
  rw [hid] at kept ⊢
  obtain ⟨u, hu, became, undeleted, never, once⟩ :=
    exists_after (turn.housed housed) (turn.legible drawn.1 drawn.2 legible) hrow alive
      (fun c hc => dated c (List.mem_append_right _ (List.mem_cons_of_mem _ hc))) kept
  rw [whole]
  refine ⟨checked, u, hu, by rw [became.id], stored.of_becomes became, undeleted, ?_, once⟩
  intro unasked
  rw [never unasked, unverified]

/--
Whatever has been asked before and is asked later, by whomever: until its activation is asked for, the user of
a registration is kept out with its own password as not yet verified. From then on, unless its deletion is
asked for, it is let in by its stored address and by its stored name, with a session of its own and with the
namespace, the name and the address that the registration has given it.
-/
theorem signIn_after_registering (service : Service) (names : TableNames) {before more : List Call}
    {r : Registration} {clientIp : String} {draw : Draw} {account : UserWithNamespace}
    (dated : ∀ c ∈ before ++ ⟨.register r clientIp, draw⟩ :: more, c.draw.Dated)
    (registered : (service.register draw.now draw.salt r clientIp
      (service.after (Journal.start names) before).db).1 = .ok account)
    (accepts : Password.verify service.derive r.password
      (Password.hash service.derive r.password draw.salt) = .ok true)
    (kept : ∀ c ∈ more, c.request ≠ .softDelete account.user.id) :
    let db := (service.after (Journal.start names) (before ++ ⟨.register r clientIp, draw⟩ :: more)).db
    ∀ identifier, identifier = trim r.email ∨ identifier = trim r.username →
      ∀ now noted token loginIp,
        let outcome := service.signIn now noted token ⟨identifier, r.password⟩ loginIp db
        ((∀ c ∈ more, c.request ≠ .activate account.user.id) → outcome = some (.error .notVerified, db)) ∧
        ((∃ c ∈ more, c.request = .activate account.user.id) → service.policy.expiry? now ≠ none →
          (∀ s ∈ db.sessions.rows, s.token ≠ token) → ∃ db',
            outcome = some (.ok ⟨token, some (trim r.username), r.displayName, trim r.email, r.publicEmail⟩, db') ∧
            ∃ session, db'.sessions.rows = db.sessions.rows ++ [session] ∧
              session.ownerId = account.user.id.number ∧ session.token = token) := by
  intro db identifier known now noted token loginIp outcome
  have start := Journal.housed_start names
  have empty_legible : (Journal.start names).db.Legible := Database.legible_empty names
  have housed : db.Housed := housed_after start _
  have legible : db.Legible := legible_after start empty_legible dated
  obtain ⟨checked, u, hu, hid, stored, undeleted, never, once⟩ :=
    exists_after_registering dated registered kept
  obtain ⟨outside, inside⟩ :=
    signIn_of_storedAs housed legible checked hu undeleted stored accepts known now noted token loginIp
  constructor
  · intro unasked
    exact outside (never unasked)
  · intro asked expires unused
    rw [hid]
    exact inside (once asked) expires unused

/-- Ada registers with blanks around her name, and without another name to be shown. -/
def adaAgain : Registration :=
  ⟨" ada@example.org", " ada ", "", "engine", true⟩

/-- Before that, she has been registered and deleted. -/
def beforeAda : List Call :=
  [⟨.register ⟨"ada@example.org", "ada", "Ada", "loom", false⟩ "::1", ⟨.epoch, .epoch, oneToEight, ""⟩⟩,
    ⟨.softDelete ⟨1⟩, ⟨.epoch, .epoch, [], ""⟩⟩]

/-- After it she tries to log in too early, is activated and logs in; somebody else comes and goes. -/
def sinceAda : List Call :=
  [⟨.signIn ⟨"ada", "engine"⟩ "::1", ⟨.epoch, .epoch, [], "early"⟩⟩,
    ⟨.activate ⟨2⟩, ⟨.epoch, .epoch, [], ""⟩⟩,
    ⟨.signIn ⟨"ada", "engine"⟩ "::1", ⟨.epoch, .epoch, [], "first"⟩⟩,
    ⟨.register ⟨"bob@example.org", "bob", "Bob", "builder", true⟩ "::1", ⟨.epoch, .epoch, oneToEight, ""⟩⟩,
    ⟨.softDelete ⟨3⟩, ⟨.epoch, .epoch, [], ""⟩⟩]

/-- At once she is kept out, and in the end she is let in. -/
theorem signIn_after_registering_ada :
    let enrolled : Call := ⟨.register adaAgain "::1", ⟨.epoch, .epoch, oneToEight, ""⟩⟩
    let early := (plain.after (Journal.start {}) (beforeAda ++ [enrolled])).db
    let late := (plain.after (Journal.start {}) (beforeAda ++ enrolled :: sinceAda)).db
    plain.signIn .epoch .epoch "token" ⟨"ada", "engine"⟩ "::1" early = some (.error .notVerified, early) ∧
      ∃ db', plain.signIn .epoch .epoch "token" ⟨"ada@example.org", "engine"⟩ "::1" late =
        some (.ok ⟨"token", some "ada", "ada", "ada@example.org", true⟩, db') := by
  intro enrolled early late
  have dated : ∀ c ∈ beforeAda ++ enrolled :: sinceAda, c.draw.Dated := by decide +kernel
  have dated_early : ∀ c ∈ beforeAda ++ [enrolled], c.draw.Dated := by decide +kernel
  have answered : ((plain.register .epoch oneToEight adaAgain "::1"
      (plain.after (Journal.start {}) beforeAda).db).1.toOption.map (·.user.id)) = some ⟨2⟩ := by
    decide +kernel
  obtain ⟨account, made, hid⟩ := Option.map_eq_some_iff.mp answered
  have registered := eq_ok_of_toOption made
  have accepts : Password.verify plain.derive adaAgain.password
      (Password.hash plain.derive adaAgain.password oneToEight) = .ok true :=
    eq_ok_of_toOption (by decide +kernel)
  have kept : ∀ c ∈ sinceAda, c.request ≠ .softDelete account.user.id := by
    rw [hid]
    decide +kernel
  have asked : ∃ c ∈ sinceAda, c.request = .activate account.user.id := by
    rw [hid]
    decide +kernel
  have email : "ada@example.org" = trim adaAgain.email := by decide +kernel
  have username : "ada" = trim adaAgain.username := by decide +kernel
  have name : "ada" = adaAgain.displayName := by decide +kernel
  obtain ⟨outside, _⟩ := signIn_after_registering plain {} dated_early registered accepts
    (List.forall_mem_nil _) _ (Or.inr username) .epoch .epoch "token" "::1"
  obtain ⟨_, inside⟩ := signIn_after_registering plain {} dated registered accepts kept _ (Or.inl email)
    .epoch .epoch "token" "::1"
  obtain ⟨db', answered, _⟩ := inside asked (by decide +kernel) (by decide +kernel)
  refine ⟨outside (List.forall_mem_nil _), db', ?_⟩
  rw [← username, ← name, ← email] at answered
  exact answered

end Service

end Gatehouse.Auth
