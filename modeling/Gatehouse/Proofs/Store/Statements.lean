import Gatehouse.Proofs.Results
import Gatehouse.Proofs.Store.Tables
import Gatehouse.Store.Transactions

/-! # Statements on a store that is ready

On an open store with all its tables a statement never fails for want of them. Each one is written here
as a single equation: which test it makes, what it refuses, and which tables it leaves. Changes of several
statements are put together from these equations.
-/

namespace Gatehouse

open Gatehouse.Store Gatehouse.Time

def NewUser.toRow (data : NewUser) (now : Instant) (id : Int) : UserRow where
  id := id
  email := data.email
  passwordHash := data.passwordHash
  username := data.username
  name := data.name
  publicEmail := if data.publicEmail then 1 else 0
  createdAt := Rfc3339.storedText now
  deletedAt := none
  verifiedAt := none
  lastLoginAt := none
  lastLoginIp := none
  registerIp := data.registerIp
  isAdmin := if data.isAdmin then 1 else 0
  namespaceId := none

def NewUser.toUser (data : NewUser) (now : Instant) (id : UserId) : User where
  id := id
  email := data.email
  username := data.username
  name := data.name
  passwordHash := data.passwordHash
  publicEmail := data.publicEmail
  isAdmin := data.isAdmin
  namespaceId := none
  createdAt := now
  deletedAt := none
  verifiedAt := none
  lastLoginAt := none
  lastLoginIp := none
  registerIp := data.registerIp

def NewSession.toRow (data : NewSession) (id : Int) : SessionRow where
  id := id
  ownerId := data.ownerId.number
  token := data.token
  clientIp := data.clientIp
  createdAt := Rfc3339.storedText data.createdAt
  expiredAt := Rfc3339.storedText data.expiredAt

def NewSession.toSession (data : NewSession) (id : Int) : Session :=
  ⟨id, data.ownerId, data.token, data.clientIp, data.createdAt, data.expiredAt⟩

def NewNamespace.toRow (data : NewNamespace) (id : Int) : NamespaceRow :=
  ⟨id, data.ownerId, data.ownerKind.code, data.path⟩

def NewNamespace.toNamespace (data : NewNamespace) (id : NamespaceId) : Namespace :=
  ⟨id, data.ownerId, data.ownerKind, data.path⟩

namespace Store

/-- A row that keeps a new user out: it is not deleted and has the address or the name. -/
def UserRow.clashes (data : NewUser) (r : UserRow) : Bool :=
  !r.isDeleted && (r.email = data.email || r.username = data.username)

@[simp] theorem UserRow.clashes_eq_true {data : NewUser} {r : UserRow} :
    r.clashes data = true ↔
      r.isDeleted = false ∧ (r.email = data.email ∨ r.username = data.username) := by
  simp [UserRow.clashes]

/-- Whether a row is the namespace of a path and belongs to a deleted user. -/
def Database.isVacant (db : Database) (path : String) (r : NamespaceRow) : Bool :=
  r.path = path && r.ownerType = OwnerKind.user.code && db.ownerDeleted r.ownerId

namespace UserRow

def unlinked (r : UserRow) : UserRow :=
  { r with namespaceId := none }

def linked (home : NamespaceId) (r : UserRow) : UserRow :=
  { r with namespaceId := some home.number }

def loggedIn (now : Instant) (clientIp : String) (r : UserRow) : UserRow :=
  { r with lastLoginAt := some (Rfc3339.storedText now), lastLoginIp := some clientIp }

def verified (now : Instant) (r : UserRow) : UserRow :=
  { r with verifiedAt := some (Rfc3339.storedText now) }

def deleted (now : Instant) (r : UserRow) : UserRow :=
  { r with deletedAt := some (Rfc3339.storedText now) }

/-- Whether a row is of a user of this number, not deleted and not verified. -/
def awaits (id : UserId) (r : UserRow) : Bool :=
  r.id = id.number && r.verifiedAt.isNone && !r.isDeleted

/-- Whether a row is of a user of this number who is not deleted. -/
def lives (id : UserId) (r : UserRow) : Bool :=
  r.id = id.number && !r.isDeleted

theorem lives_of_awaits {id : UserId} {r : UserRow} (h : r.awaits id = true) : r.lives id = true := by
  simp only [awaits, Bool.and_eq_true] at h
  simp only [lives, Bool.and_eq_true]
  exact ⟨h.1.1, h.2⟩

end UserRow

namespace Database

def withVerified (db : Database) (now : Instant) (id : UserId) : Database :=
  { db with users := db.users.modify (UserRow.awaits id) (UserRow.verified now) }

def withDeleted (db : Database) (now : Instant) (id : UserId) : Database :=
  { db with users := db.users.modify (UserRow.lives id) (UserRow.deleted now) }

def withLogin (db : Database) (now : Instant) (id : UserId) (clientIp : String) (data : NewSession) :
    Database :=
  { db with
    users := db.users.modify (fun r => r.id = id.number) (UserRow.loggedIn now clientIp)
    sessions := db.sessions.append data.toRow }

end Database

@[simp] theorem NamespaceRow.ownedBy_eq_true {r : NamespaceRow} {owner : Int} {kind : OwnerKind} :
    r.ownedBy owner kind = true ↔ r.ownerId = owner ∧ r.ownerType = kind.code := by
  simp [NamespaceRow.ownedBy]

section Statements

variable {db : Database}

theorem insertUser_eq (h : db.Ready) (now : Instant) (data : NewUser) :
    insertUser now data db =
      if db.users.any (UserRow.clashes data) then
        .error (.userTaken data.username data.email)
      else
        .ok (data.toUser now ⟨db.users.nextKey⟩,
          { db with users := db.users.append (data.toRow now) }) := by
  simp only [insertUser, h.require]
  rfl

theorem updateUsers_eq (h : db.Ready) (p : UserRow → Bool) (f : UserRow → UserRow) :
    updateUsers p f db = .ok (db.users.any p, { db with users := db.users.modify p f }) := by
  simp only [updateUsers, h.require]
  rfl

theorem updateUser_eq (h : db.Ready) (id : UserId) (f : UserRow → UserRow) :
    updateUser id f db =
      if db.users.any (fun r => r.id = id.number) then
        .ok ((), { db with users := db.users.modify (fun r => r.id = id.number) f })
      else
        .error (.noUser id) := by
  simp only [updateUser, updateUsers_eq h]
  rfl

theorem insertSession_eq (h : db.Ready) (data : NewSession) :
    insertSession data db =
      if db.sessions.any (fun r => r.token = data.token) then
        .error .tokenTaken
      else if db.users.any (fun r => r.id = data.ownerId.number) then
        .ok (data.toSession db.sessions.nextKey,
          { db with sessions := db.sessions.append data.toRow })
      else
        .error .danglingOwner := by
  have hm : Relation.users ∉ db.missing := by simp [h.2]
  simp only [insertSession, h.require, if_neg hm]
  split
  · rfl
  · cases db.users.any fun r => r.id = data.ownerId.number <;> rfl

theorem insertNamespace_eq (h : db.Ready) (data : NewNamespace) :
    insertNamespace data db =
      if db.namespaces.any (fun r => r.path = data.path || r.ownedBy data.ownerId data.ownerKind) then
        .error (.namespaceTaken data.path data.ownerId)
      else
        .ok (data.toNamespace ⟨db.namespaces.nextKey⟩,
          { db with namespaces := db.namespaces.append data.toRow }) := by
  simp only [insertNamespace, h.require]
  rfl

theorem namespaceOwnedBy_eq (h : db.Ready) (owner : Int) (kind : OwnerKind) :
    namespaceOwnedBy owner kind db =
      .ok ((db.namespaces.find? fun r => r.ownedBy owner kind).map
        fun r => ⟨⟨r.id⟩, owner, kind, r.path⟩) := by
  simp only [namespaceOwnedBy, h.require]
  cases hf : db.namespaces.find? fun r => r.ownedBy owner kind with
  | none => rfl
  | some r =>
      -- a row found under a kind has the code of that kind, so reading it back cannot fail
      have ho := List.find?_some hf
      obtain ⟨rfl, hk⟩ := NamespaceRow.ownedBy_eq_true.mp ho
      simp only [Option.mapM_some, NamespaceRow.toNamespace, hk, OwnerKind.ofCode?_code]
      rfl

theorem takeOverNamespace_eq (h : db.Ready) (path : String) (owner : Int) :
    takeOverNamespace path owner db =
      if db.namespaces.any (db.isVacant path) then
        if db.namespaces.any (fun r => r.ownedBy owner .user && !db.isVacant path r) then
          .error (.ownerTaken owner)
        else
          let taken := db.namespaces.modify (db.isVacant path) fun r => { r with ownerId := owner }
          match taken.find? fun r => r.ownedBy owner .user with
          | none => .ok (none, { db with namespaces := taken })
          | some home =>
            .ok (some ⟨⟨home.id⟩, owner, .user, home.path⟩,
              { db with
                namespaces := taken
                users := db.users.modify (fun r => r.isDeleted && r.namespaceId = some home.id)
                  UserRow.unlinked })
      else
        .ok (none, db) := by
  simp only [takeOverNamespace, h.require]
  change (if (!db.namespaces.any (db.isVacant path)) = true then _ else _) = _
  cases db.namespaces.any (db.isVacant path) with
  | false => rfl
  | true =>
      change (if db.namespaces.any (fun r => r.ownedBy owner .user && !db.isVacant path r) then
        _ else _) = _
      split
      · rfl
      · -- the namespace is looked for on the store in which it has been taken over
        have ready : ∀ t, Database.Ready { db with namespaces := t } := fun _ => h
        have vacant : (fun r : NamespaceRow => decide (r.path = path) &&
            decide (r.ownerType = OwnerKind.user.code) && db.ownerDeleted r.ownerId) = db.isVacant path := rfl
        simp only [namespaceOwnedBy_eq (ready _), updateUsers_eq (ready _), ok_bind, vacant, if_true]
        cases (db.namespaces.modify (db.isVacant path) fun r => { r with ownerId := owner }).find?
            fun r => r.ownedBy owner .user with
        | none => rfl
        | some home => rfl

/-! ## Operations -/

namespace Database

theorem activate_eq (h : db.Ready) (now : Instant) (id : UserId) :
    activate now id db = updateUsers (UserRow.awaits id) (UserRow.verified now) db := by
  simp only [activate, h.requireOpen, ok_bind]
  rfl

theorem softDelete_eq (h : db.Ready) (now : Instant) (id : UserId) :
    softDelete now id db = updateUsers (UserRow.lives id) (UserRow.deleted now) db := by
  simp only [softDelete, h.requireOpen, ok_bind]
  rfl

theorem recordLogin_eq (h : db.Ready) (now : Instant) (id : UserId) (clientIp : String) :
    recordLogin now id clientIp db = updateUser id (UserRow.loggedIn now clientIp) db := by
  simp only [recordLogin, h.requireOpen, ok_bind]
  rfl

theorem assignNamespace_eq (h : db.Ready) (id : UserId) (home : NamespaceId) :
    assignNamespace id home db = updateUser id (UserRow.linked home) db := by
  simp only [assignNamespace, h.requireOpen, ok_bind]
  rfl

theorem createUser_eq (h : db.Ready) (now : Instant) (data : NewUser) :
    createUser now data db = insertUser now data db := by
  simp only [createUser, h.requireOpen, ok_bind]

theorem createSession_eq (h : db.Ready) (data : NewSession) :
    createSession data db = insertSession data db := by
  simp only [createSession, h.requireOpen, ok_bind]

theorem createNamespace_eq (h : db.Ready) (data : NewNamespace) :
    createNamespace data db = insertNamespace data db := by
  simp only [createNamespace, h.requireOpen, ok_bind]

/-- A login notes itself, adds the session and looks for the namespace, or does nothing. -/
theorem commitLogin_eq (h : db.Ready) (now : Instant) (id : UserId) (clientIp : String)
    (data : NewSession) :
    commitLogin now id clientIp data db =
      if db.users.any (fun r => r.id = id.number) then
        if db.sessions.any (fun r => r.token = data.token) then
          .error .tokenTaken
        else if db.users.any (fun r => r.id = data.ownerId.number) then
          .ok (⟨data.toSession db.sessions.nextKey,
              (db.namespaces.find? fun r => r.ownedBy id.number .user).map
                fun r => ⟨⟨r.id⟩, id.number, .user, r.path⟩⟩,
            db.withLogin now id clientIp data)
        else
          .error .danglingOwner
      else
        .error (.noUser id) := by
  have noted : noteLogin now id clientIp db = updateUser id (UserRow.loggedIn now clientIp) db := rfl
  -- the later statements run on stores that differ from this one in their rows only
  have ready : ∀ users sessions, Database.Ready { db with users := users, sessions := sessions } :=
    fun _ _ => h
  have same : (db.users.modify (fun r => r.id = id.number) (UserRow.loggedIn now clientIp)).any
      (fun r => r.id = data.ownerId.number) = db.users.any fun r => r.id = data.ownerId.number :=
    Table.any_modify fun _ => rfl
  simp only [commitLogin, h.requireOpen, ok_bind, noted, updateUser_eq h]
  split
  · simp only [ok_bind, insertSession_eq (ready _ _), same]
    split
    · rfl
    · split
      · simp only [ok_bind, namespaceOwnedBy_eq (ready _ _)]
        rfl
      · rfl
  · rfl

end Database

end Statements

end Store

end Gatehouse
