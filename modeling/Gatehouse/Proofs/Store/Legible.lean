import Gatehouse.Proofs.Store.Accounts
import Gatehouse.Proofs.Time.Stored

/-! # Rows that can be read back

A query of users answers unless an instant in the row that it finds cannot be read. What the store keeps
of an instant with a year of four digits can be, so on a store written at such instants queries answer,
and what they find is known from the rows.
-/

namespace Gatehouse.Store

open Gatehouse.Time

/-- A kept text that stands for an instant. -/
def Readable (text : String) : Prop :=
  ∃ t, Rfc3339.read text.toList = .ok t

structure UserRow.Legible (r : UserRow) : Prop where
  createdAt : Readable r.createdAt
  deletedAt : ∀ text ∈ r.deletedAt, Readable text
  verifiedAt : ∀ text ∈ r.verifiedAt, Readable text
  lastLoginAt : ∀ text ∈ r.lastLoginAt, Readable text

/-- A store all of whose users can be read. -/
def Database.Legible (db : Database) : Prop :=
  ∀ r ∈ db.users.rows, r.Legible

theorem readable_storedText {t : Instant} (h : t.Dated) : Readable (Rfc3339.storedText t) :=
  Rfc3339.read_storedText h

theorem Readable.instantOf {text : String} (h : Readable text) (column : String) :
    ∃ t, instantOf column text = .ok t := by
  obtain ⟨t, ht⟩ := h
  exact ⟨t, by rw [Store.instantOf, ht]⟩

theorem instantOf?_of_readable {text? : Option String} (h : ∀ text ∈ text?, Readable text)
    (column : String) : ∃ t, instantOf? column text? = .ok t := by
  cases text? with
  | none => exact ⟨none, rfl⟩
  | some text =>
      obtain ⟨t, ht⟩ := (h text rfl).instantOf column
      exact ⟨some t, by rw [instantOf?, ht]; rfl⟩

namespace UserRow

/-- A user that has been read from a row has the row's number, name and address. -/
structure IsRowOf (r : UserRow) (user : User) : Prop where
  id : user.id = ⟨r.id⟩
  username : user.username = r.username
  email : user.email = r.email
  name : user.name = r.name

variable {r : UserRow}

theorem Legible.toUser (h : r.Legible) : ∃ user, r.toUser = .ok user := by
  obtain ⟨createdAt, hc⟩ := h.createdAt.instantOf "created_at"
  obtain ⟨deletedAt, hd⟩ := instantOf?_of_readable h.deletedAt "deleted_at"
  obtain ⟨verifiedAt, hv⟩ := instantOf?_of_readable h.verifiedAt "verified_at"
  obtain ⟨lastLoginAt, hl⟩ := instantOf?_of_readable h.lastLoginAt "last_login_at"
  simp only [UserRow.toUser, hc, hd, hv, hl, ok_bind]
  exact ⟨_, rfl⟩

/-- What else a user that has been read takes over from its row. -/
structure ReadAs (r : UserRow) (user : User) : Prop extends r.IsRowOf user where
  passwordHash : user.passwordHash = r.passwordHash
  publicEmail : user.publicEmail = (r.publicEmail != 0)
  isAdmin : user.isAdmin = (r.isAdmin != 0)
  isVerified : user.isVerified = r.verifiedAt.isSome

theorem isSome_of_instantOf? {column : String} {text? : Option String} {t? : Option Instant}
    (h : instantOf? column text? = .ok t?) : t?.isSome = text?.isSome := by
  cases text? with
  | none =>
      cases h
      rfl
  | some text =>
      rw [instantOf?] at h
      cases ht : instantOf column text with
      | error e =>
          rw [ht] at h
          cases h
      | ok t =>
          rw [ht] at h
          cases h
          rfl

theorem readAs_of_toUser {user : User} (h : r.toUser = .ok user) : r.ReadAs user := by
  rw [UserRow.toUser] at h
  obtain ⟨createdAt, -, h⟩ := exists_of_bind_eq_ok h
  obtain ⟨deletedAt, -, h⟩ := exists_of_bind_eq_ok h
  obtain ⟨verifiedAt, verified, h⟩ := exists_of_bind_eq_ok h
  obtain ⟨lastLoginAt, -, h⟩ := exists_of_bind_eq_ok h
  cases h
  exact ⟨⟨rfl, rfl, rfl, rfl⟩, rfl, rfl, rfl, isSome_of_instantOf? verified⟩

theorem readable_of_instantOf {column text : String} {t : Instant} (h : instantOf column text = .ok t) :
    Readable text := by
  rw [instantOf] at h
  cases hr : Rfc3339.read text.toList with
  | ok read => exact ⟨read, hr⟩
  | error fault =>
      rw [hr] at h
      cases h

theorem readable_of_instantOf? {column : String} {text? : Option String} {t? : Option Instant}
    (h : instantOf? column text? = .ok t?) : ∀ text ∈ text?, Readable text := by
  rintro text rfl
  rw [instantOf?] at h
  cases ht : instantOf column text with
  | ok t => exact readable_of_instantOf ht
  | error e =>
      rw [ht] at h
      cases h

/-- Nothing but an instant keeps a row from being read. -/
theorem legible_of_toUser {user : User} (h : r.toUser = .ok user) : r.Legible := by
  rw [UserRow.toUser] at h
  obtain ⟨_, created, h⟩ := exists_of_bind_eq_ok h
  obtain ⟨_, deleted, h⟩ := exists_of_bind_eq_ok h
  obtain ⟨_, verified, h⟩ := exists_of_bind_eq_ok h
  obtain ⟨_, login, _⟩ := exists_of_bind_eq_ok h
  exact ⟨readable_of_instantOf created, readable_of_instantOf? deleted, readable_of_instantOf? verified,
    readable_of_instantOf? login⟩

section Changes

variable {now : Instant}

theorem Legible.loggedIn (h : r.Legible) (dated : now.Dated) (clientIp : String) :
    (r.loggedIn now clientIp).Legible where
  createdAt := h.createdAt
  deletedAt := h.deletedAt
  verifiedAt := h.verifiedAt
  lastLoginAt := by
    intro text ht
    cases ht
    exact readable_storedText dated

theorem Legible.verified (h : r.Legible) (dated : now.Dated) : (r.verified now).Legible where
  createdAt := h.createdAt
  deletedAt := h.deletedAt
  verifiedAt := by
    intro text ht
    cases ht
    exact readable_storedText dated
  lastLoginAt := h.lastLoginAt

theorem Legible.deleted (h : r.Legible) (dated : now.Dated) : (r.deleted now).Legible where
  createdAt := h.createdAt
  deletedAt := by
    intro text ht
    cases ht
    exact readable_storedText dated
  verifiedAt := h.verifiedAt
  lastLoginAt := h.lastLoginAt

/-- A link is not read from a text. -/
theorem legible_unlinked : r.unlinked.Legible ↔ r.Legible :=
  ⟨fun h => ⟨h.createdAt, h.deletedAt, h.verifiedAt, h.lastLoginAt⟩,
    fun h => ⟨h.createdAt, h.deletedAt, h.verifiedAt, h.lastLoginAt⟩⟩

theorem legible_toRow (dated : now.Dated) (data : NewUser) (k : Int) : (data.toRow now k).Legible where
  createdAt := readable_storedText dated
  deletedAt := by
    intro text ht
    cases ht
  verifiedAt := by
    intro text ht
    cases ht
  lastLoginAt := by
    intro text ht
    cases ht

end Changes

end UserRow

namespace Database

variable {db : Database}

/-! ## Queries -/

theorem userWhere_eq (h : db.Ready) (p : UserRow → Bool) : userWhere p db =
    (db.users.find? fun r => p r && !r.isDeleted).mapM UserRow.toUser := by
  simp only [userWhere, h.requireOpen, h.require, ok_bind]

/-- What has been looked for is read from a row with the property looked for. -/
theorem exists_of_find?_mapM {ρ α : Type} {t : Table ρ} {p : ρ → Bool} {read : ρ → Except Error α} {a : α}
    (h : (t.find? p).mapM read = .ok (some a)) : ∃ r ∈ t.rows, p r = true ∧ read r = .ok a := by
  cases hf : t.find? p with
  | none =>
      rw [hf] at h
      cases h
  | some r =>
      rw [hf, Option.mapM_some] at h
      obtain ⟨b, read_eq, h⟩ := exists_of_bind_eq_ok h
      cases h
      exact ⟨r, List.mem_of_find?_eq_some hf, List.find?_some hf, read_eq⟩

/-- Whatever the store, who is found is read from a row that is not deleted. -/
theorem read_of_userWhere {p : UserRow → Bool} {user : User} (found : userWhere p db = .ok (some user)) :
    ∃ r ∈ db.users.rows, p r = true ∧ r.isDeleted = false ∧ r.toUser = .ok user := by
  rw [userWhere] at found
  obtain ⟨_, _, found⟩ := exists_of_bind_eq_ok found
  obtain ⟨_, _, found⟩ := exists_of_bind_eq_ok found
  obtain ⟨r, hr, hp, read⟩ := exists_of_find?_mapM found
  rw [Bool.and_eq_true, Bool.not_eq_true'] at hp
  exact ⟨r, hr, hp.1, hp.2, read⟩

/-- A query that answers finds somebody where there is somebody. -/
theorem userWhere_isSome {p : UserRow → Bool} {found : Option User} (h : userWhere p db = .ok found) :
    found.isSome = true ↔ ∃ r ∈ db.users.rows, r.isDeleted = false ∧ p r = true := by
  rw [userWhere] at h
  obtain ⟨_, _, h⟩ := exists_of_bind_eq_ok h
  obtain ⟨_, _, h⟩ := exists_of_bind_eq_ok h
  cases hf : db.users.find? fun r => p r && !r.isDeleted with
  | none =>
      rw [hf] at h
      cases h
      have nobody := Table.find?_eq_none.mp hf
      simp only [Option.isSome_none, Bool.false_eq_true, false_iff]
      rintro ⟨r, hr, alive, hp⟩
      have none_here := nobody r hr
      rw [hp, alive] at none_here
      cases none_here
  | some r =>
      rw [hf, Option.mapM_some] at h
      obtain ⟨user, _, h⟩ := exists_of_bind_eq_ok h
      cases h
      have chosen := List.find?_some hf
      rw [Bool.and_eq_true, Bool.not_eq_true'] at chosen
      simp only [Option.isSome_some, true_iff]
      exact ⟨r, List.mem_of_find?_eq_some hf, chosen.2, chosen.1⟩

theorem Legible.exists_found (hl : db.Legible) (p : UserRow → Bool) :
    ∃ found, (db.users.find? p).mapM UserRow.toUser = .ok found := by
  cases hf : db.users.find? p with
  | none => exact ⟨none, rfl⟩
  | some r =>
      obtain ⟨user, read⟩ := (hl r (List.mem_of_find?_eq_some hf)).toUser
      exact ⟨some user, by rw [Option.mapM_some, read]; rfl⟩

/-- On a legible store a query answers, and finds nobody only if there is nobody. -/
theorem Legible.userWhere (hl : db.Legible) (h : db.Ready) (p : UserRow → Bool) :
    ∃ found, userWhere p db = .ok found ∧
      (found = none ↔ ∀ r ∈ db.users.rows, r.isDeleted = false → p r = false) := by
  obtain ⟨found, read⟩ := hl.exists_found fun r => p r && !r.isDeleted
  have answered := (userWhere_eq h p).trans read
  refine ⟨found, answered, ?_⟩
  rw [← Option.not_isSome_iff_eq_none, userWhere_isSome answered]
  simp

/-- Where one row only has the property looked for, that row is read. -/
theorem userWhere_of_unique (h : db.Ready) {p : UserRow → Bool} {r : UserRow} (hr : r ∈ db.users.rows)
    (hd : r.isDeleted = false) (hp : p r = true)
    (unique : ∀ s ∈ db.users.rows, s.isDeleted = false → p s = true → s = r) :
    userWhere p db = r.toUser.map some := by
  have found : db.users.find? (fun r => p r && !r.isDeleted) = some r := by
    apply Table.find?_eq_some_of_unique hr
    · rw [hp, hd]
      rfl
    · intro s hs hps
      rw [Bool.and_eq_true, Bool.not_eq_true'] at hps
      exact unique s hs hps.2 hps.1
  rw [userWhere_eq h, found, Option.mapM_some]
  cases r.toUser <;> rfl

theorem Legible.userWhere_eq_some (hl : db.Legible) (h : db.Ready) {p : UserRow → Bool} {r : UserRow}
    (hr : r ∈ db.users.rows) (hd : r.isDeleted = false) (hp : p r = true)
    (unique : ∀ s ∈ db.users.rows, s.isDeleted = false → p s = true → s = r) :
    ∃ user, Database.userWhere p db = .ok (some user) ∧ r.ReadAs user := by
  obtain ⟨user, read⟩ := (hl r hr).toUser
  refine ⟨user, ?_, UserRow.readAs_of_toUser read⟩
  rw [userWhere_of_unique h hr hd hp unique, read]
  rfl

/-- On a legible store the query for the user of a token answers too. -/
theorem Legible.userBySession (hl : db.Legible) (h : db.Ready) (now : Instant) (token : String) :
    ∃ found, userBySession now token db = .ok found := by
  simp only [Database.userBySession, h.requireOpen, h.require, ok_bind]
  exact hl.exists_found _

/-- The query for a name or an address tells whether they are free. -/
theorem userExists_iff {username email : String} (named : username ≠ "") (addressed : email ≠ "") {taken : Bool}
    (h : userExists username email db = .ok taken) : taken = true ↔ ¬ db.IsFree username email := by
  rw [not_isFree_iff]
  simp only [userExists, if_pos named, if_pos addressed] at h
  obtain ⟨byName, asked_name, h⟩ := exists_of_bind_eq_ok h
  have name_iff := userWhere_isSome asked_name
  simp only [decide_eq_true_eq] at name_iff
  split at h
  · rename_i found
    cases h
    obtain ⟨r, hr, alive, same⟩ := name_iff.mp found
    exact ⟨fun _ => ⟨r, hr, alive, Or.inl same⟩, fun _ => rfl⟩
  · rename_i unnamed
    obtain ⟨byAddress, asked_address, h⟩ := exists_of_bind_eq_ok h
    have address_iff := userWhere_isSome asked_address
    simp only [decide_eq_true_eq] at address_iff
    have answer : taken = byAddress.isSome := by
      split at h <;> cases h <;> simp_all
    rw [answer, address_iff]
    constructor
    · rintro ⟨r, hr, alive, same⟩
      exact ⟨r, hr, alive, Or.inr same⟩
    · rintro ⟨r, hr, alive, same | same⟩
      · exact absurd (name_iff.mpr ⟨r, hr, alive, same⟩) unnamed
      · exact ⟨r, hr, alive, same⟩

theorem Legible.userExists (hl : db.Legible) (h : db.Ready) {username email : String}
    (hu : username ≠ "") (he : email ≠ "") :
    ∃ taken, userExists username email db = .ok taken ∧ (taken = false ↔ db.IsFree username email) := by
  obtain ⟨named, hn, _⟩ := hl.userWhere h fun r => r.username = username
  obtain ⟨addressed, ha, _⟩ := hl.userWhere h fun r => r.email = email
  have answered : Database.userExists username email db = .ok (named.isSome || addressed.isSome) := by
    simp only [Database.userExists, if_pos hu, if_pos he, userByUsername, userByEmail, hn, ha, ok_bind]
    cases named <;> cases addressed <;> rfl
  refine ⟨_, answered, ?_⟩
  rw [← Bool.not_eq_true, userExists_iff hu he answered, Classical.not_not]

/-! ## Changes -/

theorem legible_empty (names : TableNames) : (empty names).Legible := by
  intro r hr
  cases hr

theorem Legible.modifyUsers (hl : db.Legible) (p : UserRow → Bool) {f : UserRow → UserRow}
    (hf : ∀ r : UserRow, r.Legible → (f r).Legible) :
    Legible { db with users := db.users.modify p f } := by
  intro r' hr'
  obtain ⟨r, hr, rfl⟩ := Table.mem_modify.mp hr'
  by_cases hp : p r
  · rw [if_pos hp]
    exact hf r (hl r hr)
  · rw [if_neg hp]
    exact hl r hr

theorem Legible.withVerified (hl : db.Legible) {now : Instant} (dated : now.Dated) (id : UserId) :
    (db.withVerified now id).Legible :=
  hl.modifyUsers _ fun _ h => h.verified dated

theorem Legible.withDeleted (hl : db.Legible) {now : Instant} (dated : now.Dated) (id : UserId) :
    (db.withDeleted now id).Legible :=
  hl.modifyUsers _ fun _ h => h.deleted dated

theorem Legible.withLogin (hl : db.Legible) {now : Instant} (dated : now.Dated) (id : UserId)
    (clientIp : String) (data : NewSession) : (db.withLogin now id clientIp data).Legible :=
  hl.modifyUsers _ fun _ h => h.loggedIn dated clientIp

theorem Legible.withAccount (hl : db.Legible) {now : Instant} (dated : now.Dated) (data : NewUser)
    (path : String) : (db.withAccount now data path).Legible := by
  intro r' hr'
  rcases mem_withAccount_users.mp hr' with ⟨r, hr, rfl⟩ | rfl
  · rw [released]
    split
    · exact UserRow.legible_unlinked.mpr (hl r hr)
    · exact hl r hr
  · exact UserRow.legible_unlinked.mp (UserRow.legible_toRow dated data db.users.nextKey)

end Database

end Gatehouse.Store
