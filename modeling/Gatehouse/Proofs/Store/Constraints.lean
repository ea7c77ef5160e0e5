import Gatehouse.Proofs.Store.Statements

/-! # What the constraints of the tables promise

A store is sound when it is ready, its tables are ordered, the columns that must be distinct are, and
every session has an owner with a row. Each statement that adds or changes rows keeps a store sound:
what it would break it refuses.
-/

namespace Gatehouse.Store

/-- What the constraints of the tables promise of a store that answers. -/
structure Database.Sound (db : Database) : Prop where
  ready : db.Ready
  users_ordered : db.users.Ordered
  sessions_ordered : db.sessions.Ordered
  namespaces_ordered : db.namespaces.Ordered
  /-- No two undeleted users have the same name. -/
  usernames : db.users.Distinct (fun r => r.isDeleted = false) UserRow.username
  /-- No two undeleted users have the same address. -/
  emails : db.users.Distinct (fun r => r.isDeleted = false) UserRow.email
  tokens : db.sessions.Distinct (fun _ => True) SessionRow.token
  paths : db.namespaces.Distinct (fun _ => True) NamespaceRow.path
  /-- An owner of a kind has at most one namespace. -/
  owners : db.namespaces.Distinct (fun _ => True) fun r => (r.ownerId, r.ownerType)
  session_owner : ∀ s ∈ db.sessions.rows, ∃ r ∈ db.users.rows, r.id = s.ownerId

/-- A change of users' rows that leaves number, name and address alone and deletes nobody's deletion. -/
structure UserRow.Harmless (f : UserRow → UserRow) : Prop where
  id_eq : ∀ r, (f r).id = r.id
  username_eq : ∀ r, (f r).username = r.username
  email_eq : ∀ r, (f r).email = r.email
  undeleted : ∀ r, (f r).isDeleted = false → r.isDeleted = false

namespace UserRow

open Gatehouse.Time

/-- Every number that users have is still one of theirs. -/
theorem Harmless.exists_id {f : UserRow → UserRow} (hf : Harmless f) {users : Table UserRow} {k : Int}
    (p : UserRow → Bool) (h : ∃ r ∈ users.rows, r.id = k) : ∃ r ∈ (users.modify p f).rows, r.id = k := by
  obtain ⟨r, hr, hid⟩ := h
  refine ⟨_, Table.mem_modify.mpr ⟨r, hr, rfl⟩, ?_⟩
  split
  · rw [hf.id_eq, hid]
  · exact hid

theorem harmless_unlinked : Harmless unlinked :=
  ⟨fun _ => rfl, fun _ => rfl, fun _ => rfl, fun _ h => h⟩

theorem harmless_linked (home : NamespaceId) : Harmless (linked home) :=
  ⟨fun _ => rfl, fun _ => rfl, fun _ => rfl, fun _ h => h⟩

theorem harmless_loggedIn (now : Instant) (clientIp : String) : Harmless (loggedIn now clientIp) :=
  ⟨fun _ => rfl, fun _ => rfl, fun _ => rfl, fun _ h => h⟩

theorem harmless_verified (now : Instant) : Harmless (verified now) :=
  ⟨fun _ => rfl, fun _ => rfl, fun _ => rfl, fun _ h => h⟩

/-- A deleted row is never undeleted, whatever it was before. -/
theorem harmless_deleted (now : Instant) : Harmless (deleted now) :=
  ⟨fun _ => rfl, fun _ => rfl, fun _ => rfl, fun _ h => by cases h⟩

end UserRow

namespace Database

variable {db : Database}

theorem sound_empty (names : TableNames) : (empty names).Sound where
  ready := ready_empty names
  users_ordered := Table.ordered_empty
  sessions_ordered := Table.ordered_empty
  namespaces_ordered := Table.ordered_empty
  usernames := Table.distinct_empty _ _
  emails := Table.distinct_empty _ _
  tokens := Table.distinct_empty _ _
  paths := Table.distinct_empty _ _
  owners := Table.distinct_empty _ _
  session_owner := by
    intro s hs
    cases hs

/-! ## Statements keep a store sound -/

theorem Sound.modifyUsers (h : db.Sound) (p : UserRow → Bool) {f : UserRow → UserRow}
    (hf : UserRow.Harmless f) : Sound { db with users := db.users.modify p f } where
  ready := h.ready
  users_ordered := h.users_ordered.modify p hf.id_eq
  sessions_ordered := h.sessions_ordered
  namespaces_ordered := h.namespaces_ordered
  usernames := h.usernames.modify p hf.undeleted hf.username_eq
  emails := h.emails.modify p hf.undeleted hf.email_eq
  tokens := h.tokens
  paths := h.paths
  owners := h.owners
  session_owner := fun s hs => hf.exists_id p (h.session_owner s hs)

/-- A change of the user of a number meets one row, and the others stand around it as before. -/
theorem Sound.modifyUser_eq (h : db.Sound) {u : UserRow} (hu : u ∈ db.users.rows) (f : UserRow → UserRow) :
    ∃ earlier later, db.users.rows = earlier ++ u :: later ∧
      db.users.modify (fun r => r.id = u.id) f = ⟨earlier ++ f u :: later, db.users.lastKey⟩ := by
  obtain ⟨earlier, later, rows_eq⟩ := List.append_of_mem hu
  obtain ⟨before, behind⟩ := h.users_ordered.key_ne_of_rows_eq rows_eq
  refine ⟨earlier, later, rows_eq, ?_⟩
  exact Table.modify_one f rows_eq (fun s hs => decide_eq_false (before s hs))
    (fun s hs => decide_eq_false (behind s hs)) (decide_eq_true rfl)

theorem Sound.addUser (h : db.Sound) (make : Int → UserRow)
    (hk : (make db.users.nextKey).id = db.users.nextKey)
    (usernames : ∀ r ∈ db.users.rows, r.isDeleted = false →
      r.username ≠ (make db.users.nextKey).username)
    (emails : ∀ r ∈ db.users.rows, r.isDeleted = false → r.email ≠ (make db.users.nextKey).email) :
    Sound { db with users := db.users.append make } where
  ready := h.ready
  users_ordered := h.users_ordered.append make hk
  sessions_ordered := h.sessions_ordered
  namespaces_ordered := h.namespaces_ordered
  usernames := h.usernames.append make usernames
  emails := h.emails.append make emails
  tokens := h.tokens
  paths := h.paths
  owners := h.owners
  session_owner := by
    intro s hs
    obtain ⟨r, hr, hid⟩ := h.session_owner s hs
    exact ⟨r, by simp [hr], hid⟩

theorem Sound.addSession (h : db.Sound) (data : NewSession)
    (unused : ∀ s ∈ db.sessions.rows, s.token ≠ data.token)
    (owner : ∃ r ∈ db.users.rows, r.id = data.ownerId.number) :
    Sound { db with sessions := db.sessions.append data.toRow } where
  ready := h.ready
  users_ordered := h.users_ordered
  sessions_ordered := h.sessions_ordered.append data.toRow rfl
  namespaces_ordered := h.namespaces_ordered
  usernames := h.usernames
  emails := h.emails
  tokens := h.tokens.append data.toRow fun s hs _ => unused s hs
  paths := h.paths
  owners := h.owners
  session_owner := by
    intro s hs
    rw [Table.append_rows, List.mem_append, List.mem_singleton] at hs
    rcases hs with hs | rfl
    · exact h.session_owner s hs
    · exact owner

theorem Sound.addNamespace (h : db.Sound) (data : NewNamespace)
    (path : ∀ n ∈ db.namespaces.rows, n.path ≠ data.path)
    (owner : ∀ n ∈ db.namespaces.rows,
      ¬ (n.ownerId = data.ownerId ∧ n.ownerType = data.ownerKind.code)) :
    Sound { db with namespaces := db.namespaces.append data.toRow } where
  ready := h.ready
  users_ordered := h.users_ordered
  sessions_ordered := h.sessions_ordered
  namespaces_ordered := h.namespaces_ordered.append data.toRow rfl
  usernames := h.usernames
  emails := h.emails
  tokens := h.tokens
  paths := h.paths.append data.toRow fun n hn _ => path n hn
  owners := h.owners.append data.toRow fun n hn _ he => owner n hn (Prod.mk.injEq .. ▸ he)
  session_owner := h.session_owner

end Database

end Gatehouse.Store
