import Gatehouse.Proofs.Auth.Runs

/-! # Who may register

A registration has three outcomes, and which one it has is decided by its own rules and by the undeleted
users alone. What deleted users have left is never in the way. The clock matters in one respect: users
are looked up with all their instants, and of a year with more than four digits the store keeps a text
that it cannot read again.
-/

namespace Gatehouse.Auth.Service

open Gatehouse.Store Gatehouse.Text Gatehouse.Time

variable {db : Database}

/-- On a housed and legible store a registration is rejected, refused or made. -/
theorem register_cases (service : Service) (h : db.Housed) (legible : db.Legible) (now : Instant)
    (salt : List UInt8) (r : Registration) (clientIp : String) :
    (∃ why, r.check = .error why ∧
      service.register now salt r clientIp db = (.error (.rejected why), db)) ∨
    (r.check = .ok () ∧ db.IsFree r.storedUsername r.storedEmail ∧
      service.register now salt r clientIp db =
        (.ok (db.account now (service.newUser salt r clientIp) r.storedUsername),
          db.withAccount now (service.newUser salt r clientIp) r.storedUsername)) ∨
    (r.check = .ok () ∧ ¬ db.IsFree r.storedUsername r.storedEmail ∧
      service.register now salt r clientIp db = (.error .taken, db)) := by
  rcases permit_cases legible h.sound.ready r with ⟨why, hc, hp⟩ | ⟨hc, free, hp⟩ | ⟨hc, held, hp⟩
  · refine Or.inl ⟨why, hc, ?_⟩
    rw [register, hp]
  · refine Or.inr (Or.inl ⟨hc, free, ?_⟩)
    rw [register, hp]
    exact enrol_of_free service h free now salt clientIp
  · refine Or.inr (Or.inr ⟨hc, held, ?_⟩)
    rw [register, hp]

/-- A registration has stored one more user, and all that it has changed besides are links and owners. -/
structure Stores (db db' : Database) (r : Registration) (account : UserWithNamespace) (row : UserRow) :
    Prop where
  /-- Deleted users may have lost their link, and there is one row more. -/
  users : db'.users.rows =
    db.users.rows.map (Database.released (db.homeAt? (trim r.username))) ++ [row]
  sessions : db'.sessions = db.sessions
  answered : row.id = account.user.id.number
  username : row.username = trim r.username
  email : row.email = trim r.email
  name : row.name = r.displayName
  unverified : row.verifiedAt = none
  undeleted : row.deletedAt = none
  noAdmin : row.isAdmin = 0
  newer : ∀ u ∈ db.users.rows, u.id < row.id
  home : ∃ n ∈ db'.namespaces.rows, row.namespaceId = some n.id ∧ n.ownerId = row.id ∧
    n.ownerType = OwnerKind.user.code ∧ n.path = trim r.username

theorem stores_withAccount (service : Service) (h : db.Housed) {r : Registration}
    (free : db.IsFree r.storedUsername r.storedEmail) (now : Instant) (salt : List UInt8)
    (clientIp : String) :
    Stores db (db.withAccount now (service.newUser salt r clientIp) r.storedUsername) r
      (db.account now (service.newUser salt r clientIp) r.storedUsername)
      (db.accountRow now (service.newUser salt r clientIp) r.storedUsername) where
  users := rfl
  sessions := rfl
  answered := rfl
  username := rfl
  email := rfl
  name := Database.accountRow_name.trans (newUser_name service salt r clientIp)
  unverified := rfl
  undeleted := rfl
  noAdmin := rfl
  newer := fun u hu => h.sound.users_ordered.key_lt_nextKey hu
  home := by
    have admitted := (admits_newUser_iff service h salt clientIp).mpr free
    refine ⟨_, (Database.mem_withAccount_namespaces h.sound admitted).mpr (Or.inr rfl), ?_⟩
    exact ⟨rfl, rfl, rfl, rfl⟩

/--
After any run a registration is rejected exactly by its own rules, refused exactly when an undeleted user
has the name or the address, and made in every other case. Unless it is made the store stays as it is. If
it is made there is one more user, neither verified nor an administrator, with a number that no user of
the run has ever had and with the namespace of its name.
-/
theorem register_after (service : Service) (names : TableNames) {calls : List Call}
    (dated : ∀ c ∈ calls, c.draw.Dated) (r : Registration) (clientIp : String) (draw : Draw) :
    let db := (service.after (Journal.start names) calls).db
    let outcome := service.register draw.now draw.salt r clientIp db
    (∀ why, outcome.1 = .error (.rejected why) ↔ r.check = .error why) ∧
    (outcome.1 = .error .taken ↔ r.check = .ok () ∧ ∃ u ∈ db.users.rows, u.isDeleted = false ∧
      (u.username = trim r.username ∨ u.email = trim r.email)) ∧
    ((∃ account, outcome.1 = .ok account) ↔ r.check = .ok () ∧
      ∀ u ∈ db.users.rows, u.isDeleted = false →
        u.username ≠ trim r.username ∧ u.email ≠ trim r.email) ∧
    (∀ e, outcome.1 = .error e → outcome.2 = db) ∧
    ∀ account, outcome.1 = .ok account → ∃ row, Stores db outcome.2 r account row ∧
      ∀ earlier, earlier <+: calls →
        ∀ u ∈ (service.after (Journal.start names) earlier).db.users.rows, u.id < row.id := by
  intro db outcome
  have h : db.Housed := housed_after (Journal.housed_start names) calls
  have legible : db.Legible :=
    legible_after (Journal.housed_start names) (Database.legible_empty names) dated
  have not_free_iff : ¬ db.IsFree (trim r.username) (trim r.email) ↔ _ := Database.not_isFree_iff
  rcases register_cases service h legible draw.now draw.salt r clientIp with
    ⟨why, hc, he⟩ | ⟨hc, free, he⟩ | ⟨hc, held, he⟩
  · have rejected : outcome = (.error (.rejected why), db) := he
    rw [rejected, hc]
    refine ⟨?_, ?_, ?_, fun _ _ => rfl, ?_⟩
    · intro why'
      constructor
      · intro he
        cases he
        rfl
      · intro he
        cases he
        rfl
    · constructor
      · intro he
        cases he
      · rintro ⟨⟨⟩, _⟩
    · constructor
      · rintro ⟨account, ⟨⟩⟩
      · rintro ⟨⟨⟩, _⟩
    · intro account he
      cases he
  · have made : outcome = (.ok (db.account draw.now (service.newUser draw.salt r clientIp) r.storedUsername),
        db.withAccount draw.now (service.newUser draw.salt r clientIp) r.storedUsername) := he
    rw [made, hc, ← not_free_iff]
    refine ⟨?_, ?_, ?_, ?_, ?_⟩
    · intro why
      constructor
      · intro he
        cases he
      · intro he
        cases he
    · constructor
      · intro he
        cases he
      · rintro ⟨_, held⟩
        exact absurd free held
    · exact ⟨fun _ => ⟨rfl, free⟩, fun _ => ⟨_, rfl⟩⟩
    · intro e he
      cases he
    · intro account he
      cases he
      have stores := stores_withAccount service h free draw.now draw.salt clientIp
      exact ⟨_, stores, fun earlier before =>
        lt_of_earlier (Journal.housed_start names) before stores.newer⟩
  · have refused : outcome = (.error .taken, db) := he
    rw [refused, hc, ← not_free_iff]
    refine ⟨?_, ?_, ?_, fun _ _ => rfl, ?_⟩
    · intro why
      constructor
      · intro he
        cases he
      · intro he
        cases he
    · exact ⟨fun _ => ⟨rfl, held⟩, fun _ => rfl⟩
    · constructor
      · rintro ⟨account, ⟨⟩⟩
      · rintro ⟨_, free⟩
        exact absurd free held
    · intro account he
      cases he

/-- The service as it is set up where nothing else is said. -/
def standard : Service :=
  ⟨.standard, Password.Argon2.tag, usualBinds⟩

/-- Two users have registered, and both have been deleted. -/
def comeAndGone : List Call :=
  [⟨.register ⟨"ada@example.org", "ada", "Ada", "engine", true⟩ "::1", ⟨.epoch, .epoch, [], ""⟩⟩,
    ⟨.register ⟨"bob@example.org", "bob", "Bob", "builder", true⟩ "::1", ⟨.epoch, .epoch, [], ""⟩⟩,
    ⟨.softDelete ⟨1⟩, ⟨.epoch, .epoch, [], ""⟩⟩,
    ⟨.softDelete ⟨2⟩, ⟨.epoch, .epoch, [], ""⟩⟩]

/-- The name of one and the address of the other may be had together. -/
theorem register_after_comeAndGone :
    (∀ c ∈ comeAndGone, c.draw.Dated) ∧
      ∃ account, (standard.register .epoch [] ⟨"bob@example.org", " ada ", "", "engine", false⟩ "::1"
        (standard.after (Journal.start {}) comeAndGone).db).1 = .ok account := by
  have dated : ∀ c ∈ comeAndGone, c.draw.Dated := by decide +kernel
  obtain ⟨_, _, made, _⟩ := register_after standard {} dated
    ⟨"bob@example.org", " ada ", "", "engine", false⟩ "::1" ⟨.epoch, .epoch, [], ""⟩
  have checked : Registration.check ⟨"bob@example.org", " ada ", "", "engine", false⟩ = .ok () := by
    decide +kernel
  have nobody : ∀ u ∈ (standard.after (Journal.start {}) comeAndGone).db.users.rows,
      u.isDeleted = false → u.username ≠ trim " ada " ∧ u.email ≠ trim "bob@example.org" := by
    decide +kernel
  exact ⟨dated, made.mpr ⟨checked, nobody⟩⟩

end Gatehouse.Auth.Service
