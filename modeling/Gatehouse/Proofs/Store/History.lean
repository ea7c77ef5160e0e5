import Gatehouse.Proofs.Store.Homes
import Gatehouse.Proofs.Store.Legible
import Gatehouse.Proofs.Store.Operations

/-! # What operations make of the rows

Nothing is assumed of the store at first: it may be closed, tables may be missing, and its rows may break
every constraint. Each operation, made or refused, leaves every user at its place with all it was made of;
only an activation verifies and only a deletion deletes, and what has been noted of either is never noted
again. Sessions are added and never changed. Runs of operations follow from single ones.
-/

namespace Gatehouse.Store

open Gatehouse.Time

/-! ## Statements that have been made -/

section Made

variable {db db' : Database}

theorem insertUser_made {now : Instant} {data : NewUser} {user : User}
    (h : insertUser now data db = .ok (user, db')) :
    db' = { db with users := db.users.append (data.toRow now) } := by
  rw [insertUser] at h
  obtain ⟨_, _, h⟩ := exists_of_bind_eq_ok h
  simp only at h
  split at h
  · cases h
  · cases h
    rfl

theorem updateUsers_made {p : UserRow → Bool} {f : UserRow → UserRow} {found : Bool}
    (h : updateUsers p f db = .ok (found, db')) : db' = { db with users := db.users.modify p f } := by
  rw [updateUsers] at h
  obtain ⟨_, _, h⟩ := exists_of_bind_eq_ok h
  cases h
  rfl

theorem updateUser_made {id : UserId} {f : UserRow → UserRow}
    (h : updateUser id f db = .ok ((), db')) :
    db' = { db with users := db.users.modify (fun r => r.id = id.number) f } := by
  rw [updateUser] at h
  obtain ⟨⟨found, changed⟩, updated, h⟩ := exists_of_bind_eq_ok h
  cases found with
  | false => cases h
  | true =>
      cases h
      exact updateUsers_made updated

theorem insertSession_made {data : NewSession} {session : Session}
    (h : insertSession data db = .ok (session, db')) :
    db' = { db with sessions := db.sessions.append data.toRow } := by
  rw [insertSession] at h
  obtain ⟨_, _, h⟩ := exists_of_bind_eq_ok h
  simp only at h
  split at h
  · cases h
  · split at h
    · cases h
    · split at h
      · cases h
      · cases h
        rfl

theorem insertNamespace_made {data : NewNamespace} {home : Namespace}
    (h : insertNamespace data db = .ok (home, db')) :
    db' = { db with namespaces := db.namespaces.append data.toRow } := by
  rw [insertNamespace] at h
  obtain ⟨_, _, h⟩ := exists_of_bind_eq_ok h
  simp only at h
  split at h
  · cases h
  · cases h
    rfl

/-- A namespace changes hands or none does; of the users some may lose their link. -/
theorem takeOverNamespace_made {path : String} {owner : Int} {home : Option Namespace}
    (h : takeOverNamespace path owner db = .ok (home, db')) : ∃ namespaces p,
      db' = { db with users := db.users.modify p UserRow.unlinked, namespaces := namespaces } := by
  have untouched : db.users.modify (fun _ => false) UserRow.unlinked = db.users :=
    Table.modify_eq_self _ (by simp)
  rw [takeOverNamespace] at h
  obtain ⟨_, _, h⟩ := exists_of_bind_eq_ok h
  obtain ⟨_, _, h⟩ := exists_of_bind_eq_ok h
  simp only at h
  split at h
  · cases h
    exact ⟨db.namespaces, _, by rw [untouched]⟩
  · split at h
    · cases h
    · obtain ⟨found, _, h⟩ := exists_of_bind_eq_ok h
      cases found with
      | none =>
          cases h
          exact ⟨_, _, by rw [untouched]⟩
      | some n =>
          obtain ⟨⟨_, changed⟩, updated, h⟩ := exists_of_bind_eq_ok h
          cases h
          rw [updateUsers_made updated]
          exact ⟨_, _, rfl⟩

namespace Database

theorem commitLogin_made {now : Instant} {id : UserId} {clientIp : String} {data : NewSession}
    {result : LoginResult} (h : commitLogin now id clientIp data db = .ok (result, db')) :
    db' = db.withLogin now id clientIp data := by
  rw [commitLogin] at h
  obtain ⟨_, _, h⟩ := exists_of_bind_eq_ok h
  obtain ⟨⟨_, noted⟩, updated, h⟩ := exists_of_bind_eq_ok h
  obtain ⟨⟨_, opened⟩, inserted, h⟩ := exists_of_bind_eq_ok h
  obtain ⟨_, _, h⟩ := exists_of_bind_eq_ok h
  cases h
  rw [insertSession_made inserted, updateUser_made updated]
  rfl

/-- The new user is linked to its namespace, and of the others some may have lost their link. -/
theorem commitRegistration_made {now : Instant} {data : NewUser} {path : String}
    {account : UserWithNamespace} (h : commitRegistration now data path db = .ok (account, db')) :
    ∃ namespaces p q home, db' = { db with
      users := ((db.users.append (data.toRow now)).modify p UserRow.unlinked).modify q (UserRow.linked home)
      namespaces := namespaces } := by
  rw [commitRegistration] at h
  obtain ⟨_, _, h⟩ := exists_of_bind_eq_ok h
  obtain ⟨⟨user, added⟩, inserted, h⟩ := exists_of_bind_eq_ok h
  obtain ⟨⟨taken, moved⟩, takenOver, h⟩ := exists_of_bind_eq_ok h
  obtain ⟨namespaces, p, hm⟩ := takeOverNamespace_made takenOver
  cases taken with
  | some home =>
      obtain ⟨_, same, h⟩ := exists_of_bind_eq_ok h
      cases same
      obtain ⟨⟨_, linked⟩, updated, h⟩ := exists_of_bind_eq_ok h
      cases h
      rw [updateUser_made updated, hm, insertUser_made inserted]
      exact ⟨_, _, _, _, rfl⟩
  | none =>
      obtain ⟨⟨home, housed⟩, added, h⟩ := exists_of_bind_eq_ok h
      obtain ⟨⟨_, linked⟩, updated, h⟩ := exists_of_bind_eq_ok h
      cases h
      rw [updateUser_made updated, insertNamespace_made added, hm, insertUser_made inserted]
      exact ⟨_, _, _, _, rfl⟩

end Database

end Made

/-! ## Operations that have been made -/

/-- What each operation leaves when it is made. -/
inductive Operation.Makes : Operation → Database → Database → Prop
  | createUser (now : Instant) (data : NewUser) (db : Database) :
      Makes (.createUser now data) db { db with users := db.users.append (data.toRow now) }
  | recordLogin (now : Instant) (id : UserId) (clientIp : String) (db : Database) :
      Makes (.recordLogin now id clientIp) db
        { db with users := db.users.modify (fun r => r.id = id.number) (UserRow.loggedIn now clientIp) }
  | assignNamespace (id : UserId) (home : NamespaceId) (db : Database) :
      Makes (.assignNamespace id home) db
        { db with users := db.users.modify (fun r => r.id = id.number) (UserRow.linked home) }
  | activate (now : Instant) (id : UserId) (db : Database) :
      Makes (.activate now id) db (db.withVerified now id)
  | softDelete (now : Instant) (id : UserId) (db : Database) :
      Makes (.softDelete now id) db (db.withDeleted now id)
  | createSession (data : NewSession) (db : Database) :
      Makes (.createSession data) db { db with sessions := db.sessions.append data.toRow }
  | createNamespace (data : NewNamespace) (db : Database) :
      Makes (.createNamespace data) db { db with namespaces := db.namespaces.append data.toRow }
  | commitLogin (now : Instant) (id : UserId) (clientIp : String) (data : NewSession) (db : Database) :
      Makes (.commitLogin now id clientIp data) db (db.withLogin now id clientIp data)
  | commitRegistration (now : Instant) (data : NewUser) (path : String) (db : Database)
      (namespaces : Table NamespaceRow) (p q : UserRow → Bool) (home : NamespaceId) :
      Makes (.commitRegistration now data path) db { db with
        users := ((db.users.append (data.toRow now)).modify p UserRow.unlinked).modify q (UserRow.linked home)
        namespaces := namespaces }

/-- A change leaves the store as it is, or what is known of every outcome that is made. -/
private theorem Change.after_cases {α : Type} {change : Change α} {db : Database} {Q : Database → Prop}
    (made : ∀ a db', change db = .ok (a, db') → Q db') : change.after db = db ∨ Q (change.after db) := by
  apply Change.after_keeps (P := fun db' => db' = db ∨ Q db') (Or.inl rfl)
  intro a db' h
  exact Or.inr (made a db' h)

/-- An operation is made, or it leaves the store as it is. -/
theorem Operation.after_cases (o : Operation) (db : Database) :
    o.after db = db ∨ o.Makes db (o.after db) := by
  cases o with
  | createUser now data =>
      apply Change.after_cases
      intro user db' made
      obtain ⟨_, _, made⟩ := exists_of_bind_eq_ok made
      rw [insertUser_made made]
      exact .createUser now data db
  | recordLogin now id clientIp =>
      apply Change.after_cases
      intro _ db' made
      obtain ⟨_, _, made⟩ := exists_of_bind_eq_ok made
      rw [updateUser_made made]
      exact .recordLogin now id clientIp db
  | assignNamespace id home =>
      apply Change.after_cases
      intro _ db' made
      obtain ⟨_, _, made⟩ := exists_of_bind_eq_ok made
      rw [updateUser_made made]
      exact .assignNamespace id home db
  | activate now id =>
      apply Change.after_cases
      intro found db' made
      obtain ⟨_, _, made⟩ := exists_of_bind_eq_ok made
      rw [updateUsers_made made]
      exact .activate now id db
  | softDelete now id =>
      apply Change.after_cases
      intro found db' made
      obtain ⟨_, _, made⟩ := exists_of_bind_eq_ok made
      rw [updateUsers_made made]
      exact .softDelete now id db
  | createSession data =>
      apply Change.after_cases
      intro session db' made
      obtain ⟨_, _, made⟩ := exists_of_bind_eq_ok made
      rw [insertSession_made made]
      exact .createSession data db
  | createNamespace data =>
      apply Change.after_cases
      intro home db' made
      obtain ⟨_, _, made⟩ := exists_of_bind_eq_ok made
      rw [insertNamespace_made made]
      exact .createNamespace data db
  | commitLogin now id clientIp data =>
      apply Change.after_cases
      intro result db' made
      rw [Database.commitLogin_made made]
      exact .commitLogin now id clientIp data db
  | commitRegistration now data path =>
      apply Change.after_cases
      intro account db' made
      obtain ⟨namespaces, p, q, home, rfl⟩ := Database.commitRegistration_made made
      exact .commitRegistration now data path db namespaces p q home

/-! ## Rows after an operation -/

/-- Two rows differ in the link to a namespace at most. -/
def UserRow.Relinked (r r' : UserRow) : Prop :=
  r'.unlinked = r.unlinked

theorem UserRow.Relinked.refl (r : UserRow) : r.Relinked r :=
  rfl

theorem UserRow.Relinked.trans {r r' r'' : UserRow} (h : r.Relinked r') (h' : r'.Relinked r'') :
    r.Relinked r'' :=
  Eq.trans h' h

theorem UserRow.Relinked.verifiedAt {r r' : UserRow} (h : r.Relinked r') : r'.verifiedAt = r.verifiedAt := by
  have column := congrArg UserRow.verifiedAt h
  exact column

theorem UserRow.Relinked.deletedAt {r r' : UserRow} (h : r.Relinked r') : r'.deletedAt = r.deletedAt := by
  have column := congrArg UserRow.deletedAt h
  exact column

/-- What an operation may make of the row of a user. -/
inductive Operation.Turns : Operation → UserRow → UserRow → Prop
  | relinked {o : Operation} {r r' : UserRow} (same : r.Relinked r') : Turns o r r'
  | noted {r : UserRow} (now : Instant) (clientIp : String) :
      Turns (.recordLogin now ⟨r.id⟩ clientIp) r (r.loggedIn now clientIp)
  | signedIn {r : UserRow} (now : Instant) (clientIp : String) (data : NewSession) :
      Turns (.commitLogin now ⟨r.id⟩ clientIp data) r (r.loggedIn now clientIp)
  | verified {r : UserRow} (now : Instant) (first : r.verifiedAt = none) :
      Turns (.activate now ⟨r.id⟩) r (r.verified now)
  | deleted {r : UserRow} (now : Instant) (first : r.deletedAt = none) :
      Turns (.softDelete now ⟨r.id⟩) r (r.deleted now)

/-- What an operation may add to the users: the row of a new one, with a link or without. -/
inductive Operation.Adds : Operation → UserRow → Prop
  | created (now : Instant) (data : NewUser) (k : Int) {r : UserRow}
      (same : r.unlinked = data.toRow now k) : Adds (.createUser now data) r
  | registered (now : Instant) (data : NewUser) (path : String) (k : Int) {r : UserRow}
      (same : r.unlinked = data.toRow now k) : Adds (.commitRegistration now data path) r

/-- What an operation may add to the sessions. -/
inductive Operation.Opens : Operation → SessionRow → Prop
  | session (data : NewSession) (k : Int) : Opens (.createSession data) (data.toRow k)
  | signedIn (now : Instant) (id : UserId) (clientIp : String) (data : NewSession) (k : Int) :
      Opens (.commitLogin now id clientIp data) (data.toRow k)

namespace Operation

theorem Turns.refl (o : Operation) (r : UserRow) : o.Turns r r :=
  relinked rfl

/-- Changes of single rows, of which the others are not touched. -/
private theorem users_grow_modify {o : Operation} {db : Database} {p : UserRow → Bool}
    {f : UserRow → UserRow} (changed : ∀ r, p r = true → o.Turns r (f r)) :
    db.users.Grows o.Turns o.Adds (db.users.modify p f) :=
  Table.grows_modify p (Turns.refl o) changed db.users

private theorem users_grow_append {o : Operation} {db : Database} (make : Int → UserRow)
    (h : o.Adds (make db.users.nextKey)) : db.users.Grows o.Turns o.Adds (db.users.append make) :=
  Table.grows_append make (Turns.refl o) db.users h

private theorem users_grow_register {db : Database} (now : Instant) (data : NewUser) (path : String)
    (p q : UserRow → Bool) (home : NamespaceId) :
    db.users.Grows (commitRegistration now data path).Turns (commitRegistration now data path).Adds
      (((db.users.append (data.toRow now)).modify p UserRow.unlinked).modify q (UserRow.linked home)) := by
  -- only links change once the user has been added
  have unlinked : ∀ t : Table UserRow,
      t.Grows UserRow.Relinked (fun _ => False) (t.modify p UserRow.unlinked) :=
    Table.grows_modify p UserRow.Relinked.refl fun _ _ => rfl
  have linked : ∀ t : Table UserRow,
      t.Grows UserRow.Relinked (fun _ => False) (t.modify q (UserRow.linked home)) :=
    Table.grows_modify q UserRow.Relinked.refl fun _ _ => rfl
  have added : db.users.Grows UserRow.Relinked (fun r => ∃ k, r.unlinked = data.toRow now k)
      (db.users.append (data.toRow now)) :=
    Table.grows_append (data.toRow now) UserRow.Relinked.refl db.users ⟨db.users.nextKey, rfl⟩
  have both := (unlinked (db.users.append (data.toRow now))).comp (linked _)
    (fun _ _ _ => UserRow.Relinked.trans) (fun _ _ h _ => h) fun _ h => h
  apply added.comp both
  · intro r r' r'' h h'
    exact .relinked (h.trans h')
  · rintro r r' ⟨k, h⟩ h'
    exact .registered now data path k (Eq.trans h' h)
  · intro r h
    exact h.elim

private theorem Makes.users_grow {o : Operation} {db db' : Database} (made : o.Makes db db') :
    db.users.Grows o.Turns o.Adds db'.users := by
  have number : ∀ {r : UserRow} {id : UserId}, decide (r.id = id.number) = true → id = ⟨r.id⟩ := by
    intro r id h
    rw [of_decide_eq_true h]
  cases made with
  | createUser now data => exact users_grow_append _ (.created now data _ rfl)
  | recordLogin now id clientIp =>
      apply users_grow_modify
      intro r hp
      rw [number hp]
      exact .noted now clientIp
  | assignNamespace id home => exact users_grow_modify fun r _ => .relinked rfl
  | activate now id =>
      apply users_grow_modify
      intro r hp
      rw [UserRow.awaits, Bool.and_eq_true, Bool.and_eq_true] at hp
      rw [number hp.1.1]
      exact .verified now (Option.isNone_iff_eq_none.mp hp.1.2)
  | softDelete now id =>
      apply users_grow_modify
      intro r hp
      rw [UserRow.lives, Bool.and_eq_true, Bool.not_eq_true'] at hp
      rw [number hp.1]
      exact .deleted now (Option.isSome_eq_false_iff.mp hp.2 |> Option.isNone_iff_eq_none.mp)
  | createSession data => exact Table.grows_refl (Turns.refl _) db.users
  | createNamespace data => exact Table.grows_refl (Turns.refl _) db.users
  | commitLogin now id clientIp data =>
      apply users_grow_modify
      intro r hp
      rw [number hp]
      exact .signedIn now clientIp data
  | commitRegistration now data path _ namespaces p q home =>
      exact users_grow_register now data path p q home

/-- Whatever the store, users stay at their places, and new ones come behind them. -/
theorem users_grow (o : Operation) (db : Database) :
    db.users.Grows o.Turns o.Adds (o.after db).users := by
  rcases o.after_cases db with untouched | made
  · rw [untouched]
    exact Table.grows_refl (Turns.refl o) db.users
  · exact made.users_grow

/-- Whatever the store, sessions stay as they are, and new ones come behind them. -/
theorem sessions_grow (o : Operation) (db : Database) :
    db.sessions.Grows Eq o.Opens (o.after db).sessions := by
  have untouched : db.sessions.Grows Eq o.Opens db.sessions := Table.grows_refl Eq.refl db.sessions
  rcases o.after_cases db with same | made
  · rw [same]
    exact untouched
  · generalize o.after db = db' at made
    cases made with
    | createSession data => exact Table.grows_append data.toRow Eq.refl db.sessions (.session data _)
    | commitLogin now id clientIp data =>
        exact Table.grows_append data.toRow Eq.refl db.sessions (.signedIn now id clientIp data _)
    | _ => exact untouched

end Operation

/-! ## Users over time -/

/-- What no operation ever changes about a user, and what it notes once. -/
structure UserRow.Becomes (r r' : UserRow) : Prop extends r.Same r' where
  passwordHash : r'.passwordHash = r.passwordHash
  publicEmail : r'.publicEmail = r.publicEmail
  isAdmin : r'.isAdmin = r.isAdmin
  createdAt : r'.createdAt = r.createdAt
  verifiedAt : r.verifiedAt ≠ none → r'.verifiedAt = r.verifiedAt
  deletedAt : r.deletedAt ≠ none → r'.deletedAt = r.deletedAt

namespace UserRow

theorem Becomes.refl (r : UserRow) : r.Becomes r :=
  ⟨Same.refl r, rfl, rfl, rfl, rfl, fun _ => rfl, fun _ => rfl⟩

theorem Becomes.trans {r r' r'' : UserRow} (h : r.Becomes r') (h' : r'.Becomes r'') : r.Becomes r'' where
  toSame := h.toSame.trans h'.toSame
  passwordHash := h'.passwordHash.trans h.passwordHash
  publicEmail := h'.publicEmail.trans h.publicEmail
  isAdmin := h'.isAdmin.trans h.isAdmin
  createdAt := h'.createdAt.trans h.createdAt
  verifiedAt := by
    intro set
    have kept := h.verifiedAt set
    rw [h'.verifiedAt (by rwa [kept]), kept]
  deletedAt := by
    intro set
    have kept := h.deletedAt set
    rw [h'.deletedAt (by rwa [kept]), kept]

theorem Becomes.isDeleted {r r' : UserRow} (h : r.Becomes r') (gone : r.isDeleted = true) :
    r'.isDeleted = true := by
  have set : r.deletedAt ≠ none := Option.isSome_iff_ne_none.mp gone
  rw [UserRow.isDeleted, h.deletedAt set]
  exact gone

theorem becomes_loggedIn (r : UserRow) (now : Instant) (clientIp : String) :
    r.Becomes (r.loggedIn now clientIp) :=
  ⟨⟨rfl, rfl, rfl, rfl, rfl⟩, rfl, rfl, rfl, rfl, fun _ => rfl, fun _ => rfl⟩

/-- Rows that differ in their links agree in everything else. -/
theorem Relinked.becomes {r r' : UserRow} (h : r.Relinked r') : r.Becomes r' := by
  obtain ⟨⟩ := r
  obtain ⟨⟩ := r'
  cases h
  exact ⟨⟨rfl, rfl, rfl, rfl, rfl⟩, rfl, rfl, rfl, rfl, fun _ => rfl, fun _ => rfl⟩

end UserRow

theorem Operation.Turns.becomes {o : Operation} {r r' : UserRow} (h : o.Turns r r') : r.Becomes r' := by
  cases h with
  | relinked same => exact same.becomes
  | noted now clientIp => exact UserRow.becomes_loggedIn r now clientIp
  | signedIn now clientIp data => exact UserRow.becomes_loggedIn r now clientIp
  | verified now first =>
      exact ⟨⟨rfl, rfl, rfl, rfl, rfl⟩, rfl, rfl, rfl, rfl, fun set => absurd first set, fun _ => rfl⟩
  | deleted now first =>
      exact ⟨⟨rfl, rfl, rfl, rfl, rfl⟩, rfl, rfl, rfl, rfl, fun _ => rfl, fun set => absurd first set⟩

theorem Operation.Turns.verifiedAt {o : Operation} {r r' : UserRow} (h : o.Turns r r') :
    r'.verifiedAt = r.verifiedAt ∨ ∃ now, o = .activate now ⟨r.id⟩ := by
  cases h with
  | relinked same => exact Or.inl same.verifiedAt
  | noted now clientIp => exact Or.inl rfl
  | signedIn now clientIp data => exact Or.inl rfl
  | verified now first => exact Or.inr ⟨now, rfl⟩
  | deleted now first => exact Or.inl rfl

theorem Operation.Turns.deletedAt {o : Operation} {r r' : UserRow} (h : o.Turns r r') :
    r'.deletedAt = r.deletedAt ∨ ∃ now, o = .softDelete now ⟨r.id⟩ := by
  cases h with
  | relinked same => exact Or.inl same.deletedAt
  | noted now clientIp => exact Or.inl rfl
  | signedIn now clientIp data => exact Or.inl rfl
  | verified now first => exact Or.inl rfl
  | deleted now first => exact Or.inr ⟨now, rfl⟩

/-! ## Runs -/

namespace Database

def run (db : Database) (operations : List Operation) : Database :=
  operations.foldl (fun db o => o.after db) db

variable {db : Database}

@[simp] theorem run_cons (db : Database) (o : Operation) (operations : List Operation) :
    db.run (o :: operations) = (o.after db).run operations := rfl

theorem run_append (db : Database) (operations more : List Operation) :
    db.run (operations ++ more) = (db.run operations).run more :=
  List.foldl_append

theorem Reachable.run (h : db.Reachable) (operations : List Operation) : (db.run operations).Reachable := by
  induction operations generalizing db with
  | nil => exact h
  | cons o operations ih => exact ih (h.step o)

theorem reachable_iff : db.Reachable ↔ ∃ names operations, (empty names).run operations = db := by
  constructor
  · intro h
    induction h with
    | empty names => exact ⟨names, [], rfl⟩
    | step o _ ih =>
        obtain ⟨names, operations, rfl⟩ := ih
        exact ⟨names, operations ++ [o], run_append _ _ _⟩
  · rintro ⟨names, operations, rfl⟩
    exact (Reachable.empty names).run operations

/-- What every turn that some operations may make keeps to, a run of them keeps to. -/
theorem run_users_grow_of {R : UserRow → UserRow → Prop} (refl : ∀ r, R r r)
    (trans : ∀ r r' r'', R r r' → R r' r'' → R r r'') {operations : List Operation}
    (turned : ∀ o ∈ operations, ∀ r r', o.Turns r r' → R r r') (db : Database) :
    db.users.Grows R (fun _ => True) (db.run operations).users := by
  induction operations generalizing db with
  | nil => exact Table.grows_refl refl db.users
  | cons o operations ih =>
      have first := (o.users_grow db).imp (turned o List.mem_cons_self) fun _ _ => trivial
      have rest := ih (fun o ho => turned o (List.mem_cons_of_mem _ ho)) (o.after db)
      exact first.comp rest trans (fun _ _ _ _ => trivial) fun _ h => h

theorem run_users_grow (db : Database) (operations : List Operation) :
    db.users.Grows UserRow.Becomes (fun _ => True) (db.run operations).users :=
  run_users_grow_of UserRow.Becomes.refl (fun _ _ _ => UserRow.Becomes.trans)
    (fun _ _ _ _ turned => turned.becomes) db

/-- Whatever follows, sessions stay, and each new one is from an operation that opens it. -/
theorem run_sessions_grow (db : Database) (operations : List Operation) :
    db.sessions.Grows Eq (fun s => ∃ o ∈ operations, o.Opens s) (db.run operations).sessions := by
  induction operations generalizing db with
  | nil => exact Table.grows_refl Eq.refl db.sessions
  | cons o operations ih =>
      apply (o.sessions_grow db).comp (ih (o.after db))
      · intro s s' s'' h h'
        exact h.trans h'
      · rintro s _ opened rfl
        exact ⟨o, List.mem_cons_self, opened⟩
      · rintro s ⟨later, among, opened⟩
        exact ⟨later, List.mem_cons_of_mem o among, opened⟩

end Database

/-! ## Clocks -/

namespace Operation

/-- The instant that an operation reads from the clock, if it does. -/
def clock? : Operation → Option Instant
  | createUser now _ => some now
  | recordLogin now _ _ => some now
  | assignNamespace _ _ => none
  | activate now _ => some now
  | softDelete now _ => some now
  | createSession _ => none
  | createNamespace _ => none
  | commitLogin now _ _ _ => some now
  | commitRegistration now _ _ => some now

/-- The clock shows a year of four digits. -/
def Dated (o : Operation) : Prop :=
  ∀ now ∈ o.clock?, now.Dated

instance (o : Operation) : Decidable o.Dated :=
  inferInstanceAs (Decidable (∀ now ∈ o.clock?, now.Dated))

end Operation

/-- On such a clock a row that can be read is made into one that can be read. -/
theorem Operation.Turns.legible {o : Operation} {r r' : UserRow} (h : o.Turns r r') (dated : o.Dated)
    (legible : r.Legible) : r'.Legible := by
  cases h with
  | relinked same => exact UserRow.legible_unlinked.mp (same ▸ UserRow.legible_unlinked.mpr legible)
  | noted now clientIp => exact legible.loggedIn (dated now rfl) clientIp
  | signedIn now clientIp data => exact legible.loggedIn (dated now rfl) clientIp
  | verified now first => exact legible.verified (dated now rfl)
  | deleted now first => exact legible.deleted (dated now rfl)

namespace Database

variable {db : Database}

theorem Legible.after (h : db.Legible) {o : Operation} (dated : o.Dated) : (o.after db).Legible := by
  intro r' hr'
  rcases (o.users_grow db).mem_back hr' with ⟨r, hr, turned⟩ | added
  · exact turned.legible dated (h r hr)
  · apply UserRow.legible_unlinked.mp
    cases added with
    | created now data k same => exact same ▸ UserRow.legible_toRow (dated now rfl) data k
    | registered now data path k same => exact same ▸ UserRow.legible_toRow (dated now rfl) data k

/-- On clocks that show four digits of the year, a store stays legible. -/
theorem Legible.run (h : db.Legible) {operations : List Operation} (dated : ∀ o ∈ operations, o.Dated) :
    (db.run operations).Legible := by
  induction operations generalizing db with
  | nil => exact h
  | cons o operations ih =>
      have first := h.after (dated o List.mem_cons_self)
      exact ih first fun o ho => dated o (List.mem_cons_of_mem _ ho)

/-- On such clocks a row that can be read stays so, whatever the other rows of the store are. -/
theorem run_users_legible (db : Database) {operations : List Operation} (dated : ∀ o ∈ operations, o.Dated) :
    db.users.Grows (fun r r' => r.Becomes r' ∧ (r.Legible → r'.Legible)) (fun _ => True)
      (db.run operations).users := by
  apply run_users_grow_of
  · intro r
    exact ⟨UserRow.Becomes.refl r, fun legible => legible⟩
  · rintro r r' r'' ⟨became, kept⟩ ⟨became', kept'⟩
    exact ⟨became.trans became', fun legible => kept' (kept legible)⟩
  · intro o ho r r' turned
    exact ⟨turned.becomes, turned.legible (dated o ho)⟩

end Database

end Gatehouse.Store
