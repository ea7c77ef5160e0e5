import Gatehouse.Proofs.Store.Accounts

/-! # Stores that operations lead to

Every operation of the store that changes it, in any order and with any outcome, starting without rows.
What such a run leads to is sound. From this the outcome of a registration follows without any
assumption on how the store came about: it is made exactly when it is admitted, and refused as a conflict
otherwise.
-/

namespace Gatehouse.Store

open Gatehouse.Time

/-- What a change leaves, made or refused. -/
def Change.after {α : Type} (change : Change α) (db : Database) : Database :=
  (change.commit db).2

/-- A property of stores is kept when every outcome that is made has it. -/
theorem Change.after_keeps {α : Type} {change : Change α} {db : Database} {P : Database → Prop}
    (old : P db) (made : ∀ a db', change db = .ok (a, db') → P db') : P (change.after db) := by
  cases h : change db with
  | error e => rw [Change.after, Change.commit_of_error h]; exact old
  | ok result =>
      obtain ⟨a, db'⟩ := result
      rw [Change.after, Change.commit_of_ok h]
      exact made a db' h

/--
The operations that change the store, each with the instant that it reads from the clock. Those that
only look at the store are not among them: a query has no store to leave.
-/
inductive Operation
  | createUser (now : Instant) (data : NewUser)
  | recordLogin (now : Instant) (id : UserId) (clientIp : String)
  | assignNamespace (id : UserId) (home : NamespaceId)
  | activate (now : Instant) (id : UserId)
  | softDelete (now : Instant) (id : UserId)
  | createSession (data : NewSession)
  | createNamespace (data : NewNamespace)
  | commitLogin (now : Instant) (id : UserId) (clientIp : String) (data : NewSession)
  | commitRegistration (now : Instant) (data : NewUser) (path : String)

namespace Operation

/-- What an operation leaves, made or refused. -/
def after : Operation → Database → Database
  | createUser now data => Change.after (Database.createUser now data)
  | recordLogin now id clientIp => Change.after (Database.recordLogin now id clientIp)
  | assignNamespace id home => Change.after (Database.assignNamespace id home)
  | activate now id => Change.after (Database.activate now id)
  | softDelete now id => Change.after (Database.softDelete now id)
  | createSession data => Change.after (Database.createSession data)
  | createNamespace data => Change.after (Database.createNamespace data)
  | commitLogin now id clientIp data => Change.after (Database.commitLogin now id clientIp data)
  | commitRegistration now data path => Change.after (Database.commitRegistration now data path)

end Operation

/-- The stores that operations lead to from one without rows. -/
inductive Database.Reachable : Database → Prop
  | empty (names : TableNames) : Reachable (empty names)
  | step {db : Database} (operation : Operation) : Reachable db → Reachable (operation.after db)

namespace Database

variable {db : Database}

/-! ## Every operation keeps a store sound -/

theorem Sound.after_insertUser (h : db.Sound) (now : Instant) (data : NewUser) :
    (Change.after (insertUser now data) db).Sound := by
  apply Change.after_keeps h
  intro a db' made
  rw [insertUser_eq h.ready] at made
  split at made
  · cases made
  · rename_i hc
    cases made
    have free := no_clash_iff.mp (Bool.not_eq_true _ ▸ hc)
    exact h.addUser (data.toRow now) rfl (fun r hr hd => (free r hr hd).1)
      fun r hr hd => (free r hr hd).2

theorem Sound.after_updateUsers (h : db.Sound) (p : UserRow → Bool) {f : UserRow → UserRow}
    (hf : UserRow.Harmless f) : (Change.after (updateUsers p f) db).Sound := by
  apply Change.after_keeps h
  intro a db' made
  rw [updateUsers_eq h.ready] at made
  cases made
  exact h.modifyUsers p hf

theorem Sound.after_updateUser (h : db.Sound) (id : UserId) {f : UserRow → UserRow}
    (hf : UserRow.Harmless f) : (Change.after (updateUser id f) db).Sound := by
  apply Change.after_keeps h
  intro a db' made
  rw [updateUser_eq h.ready] at made
  split at made
  · cases made
    exact h.modifyUsers _ hf
  · cases made

theorem Sound.after_insertSession (h : db.Sound) (data : NewSession) :
    (Change.after (insertSession data) db).Sound := by
  apply Change.after_keeps h
  intro a db' made
  rw [insertSession_eq h.ready] at made
  split at made
  · cases made
  · split at made
    · rename_i ht ho
      cases made
      exact h.addSession data (by simpa using ht) (by simpa using ho)
    · cases made

theorem Sound.after_insertNamespace (h : db.Sound) (data : NewNamespace) :
    (Change.after (insertNamespace data) db).Sound := by
  apply Change.after_keeps h
  intro a db' made
  rw [insertNamespace_eq h.ready] at made
  split at made
  · cases made
  · rename_i hc
    cases made
    have free : ∀ n ∈ db.namespaces.rows, n.path ≠ data.path ∧
        (n.ownerId = data.ownerId → ¬ n.ownerType = data.ownerKind.code) := by
      simpa using hc
    exact h.addNamespace data (fun n hn => (free n hn).1)
      fun n hn ho => (free n hn).2 ho.1 ho.2

theorem Sound.after_commitLogin (h : db.Sound) (now : Instant) (id : UserId) (clientIp : String)
    (data : NewSession) : (Change.after (commitLogin now id clientIp data) db).Sound := by
  apply Change.after_keeps h
  intro a db' made
  rw [commitLogin_eq h.ready] at made
  split at made
  · split at made
    · cases made
    · split at made
      · rename_i ht ho
        cases made
        have harmless := UserRow.harmless_loggedIn now clientIp
        have noted := h.modifyUsers (fun r => r.id = id.number) harmless
        exact noted.addSession data (by simpa using ht) (harmless.exists_id _ (by simpa using ho))
      · cases made
  · cases made

theorem Sound.after_commitRegistration (h : db.Sound) (now : Instant) (data : NewUser) (path : String) :
    (Change.after (commitRegistration now data path) db).Sound := by
  apply Change.after_keeps h
  intro a db' made
  by_cases ha : db.Admits data path
  · rw [commitRegistration_of_admits h now ha] at made
    cases made
    exact h.withAccount ha
  · obtain ⟨e, refused, _⟩ := commitRegistration_of_not_admits h now ha
    rw [refused] at made
    cases made

/-- A store that answers is changed in the same way when the door is not looked at again. -/
private theorem after_congr {α : Type} {change change' : Change α} (h : change db = change' db) :
    change.after db = change'.after db := by
  simp only [Change.after, Change.commit, h]

/-- No operation, made or refused, breaks a constraint. -/
theorem Sound.after (h : db.Sound) (operation : Operation) : (operation.after db).Sound := by
  cases operation with
  | createUser now data =>
      rw [Operation.after, after_congr (createUser_eq h.ready now data)]
      exact h.after_insertUser now data
  | recordLogin now id clientIp =>
      rw [Operation.after, after_congr (recordLogin_eq h.ready now id clientIp)]
      exact h.after_updateUser id (UserRow.harmless_loggedIn now clientIp)
  | assignNamespace id home =>
      rw [Operation.after, after_congr (assignNamespace_eq h.ready id home)]
      exact h.after_updateUser id (UserRow.harmless_linked home)
  | activate now id =>
      rw [Operation.after, after_congr (activate_eq h.ready now id)]
      exact h.after_updateUsers _ (UserRow.harmless_verified now)
  | softDelete now id =>
      rw [Operation.after, after_congr (softDelete_eq h.ready now id)]
      exact h.after_updateUsers _ (UserRow.harmless_deleted now)
  | createSession data =>
      rw [Operation.after, after_congr (createSession_eq h.ready data)]
      exact h.after_insertSession data
  | createNamespace data =>
      rw [Operation.after, after_congr (createNamespace_eq h.ready data)]
      exact h.after_insertNamespace data
  | commitLogin now id clientIp data => exact h.after_commitLogin now id clientIp data
  | commitRegistration now data path => exact h.after_commitRegistration now data path

theorem Reachable.sound (h : db.Reachable) : db.Sound := by
  induction h with
  | empty names => exact sound_empty names
  | step operation _ ih => exact ih.after operation

/-! ## Registrations -/

/--
A registration is made exactly when it is admitted, and then the store afterwards is known in full. One
that is not admitted is refused as a conflict and leaves the store alone. Either way the namespaces of
organisations and of undeleted users stay as they are.
-/
theorem commitRegistration_outcome (reached : db.Reachable) (now : Instant) (data : NewUser)
    (path : String) :
    let outcome := (commitRegistration now data path).commit db
    ((∃ account, outcome.1 = .ok account) ↔ db.Admits data path) ∧
      (¬ db.Admits data path →
        (∃ e, outcome.1 = .error e ∧ e.isConflict = true) ∧ outcome.2 = db) ∧
      (db.Admits data path →
        outcome.1 = .ok (db.account now data path) ∧ outcome.2 = db.withAccount now data path) ∧
      ∀ n ∈ db.namespaces.rows,
        (n.ownerType = OwnerKind.organisation.code ∨
          ∃ r ∈ db.users.rows, r.id = n.ownerId ∧ r.isDeleted = false) →
        n ∈ outcome.2.namespaces.rows := by
  intro outcome
  have h := reached.sound
  by_cases ha : db.Admits data path
  · have made : outcome = (.ok (db.account now data path), db.withAccount now data path) :=
      Change.commit_of_ok (commitRegistration_of_admits h now ha)
    rw [made]
    refine ⟨⟨fun _ => ha, fun _ => ⟨_, rfl⟩⟩, fun hn => absurd ha hn, fun _ => ⟨rfl, rfl⟩, ?_⟩
    intro n hn kept
    refine (mem_withAccount_namespaces h ha).mpr (Or.inl ⟨hn, ?_⟩)
    -- a namespace of the path would be one of a deleted user
    intro hp
    obtain ⟨kind, r, hr, hid, hd⟩ := ha.vacant n hn hp
    rcases kept with ht | ⟨s, hs, hid', hd'⟩
    · rw [ht] at kind
      cases OwnerKind.code_injective kind
    · rw [h.users_ordered.eq_of_key_eq hr hs (hid.trans hid'.symm), hd'] at hd
      cases hd
  · obtain ⟨e, refused, conflict⟩ := commitRegistration_of_not_admits h now ha
    have kept : outcome = (.error e, db) := Change.commit_of_error refused
    rw [kept]
    refine ⟨⟨?_, fun h => absurd h ha⟩, fun _ => ⟨⟨e, rfl, conflict⟩, rfl⟩, fun h => absurd h ha,
      fun n hn _ => hn⟩
    rintro ⟨account, ho⟩
    cases ho

/-- Someone who registers. -/
def ada : NewUser where
  email := "ada@example.org"
  username := "ada"
  name := "Ada"
  passwordHash := "hash"
  publicEmail := false
  isAdmin := false
  registerIp := "::1"

/-- Ada has been deleted, and a guild has a namespace under the number of the next user. -/
def adaDeleted : Database :=
  (Operation.createNamespace ⟨2, .organisation, "guild"⟩).after
    ((Operation.softDelete .epoch ⟨1⟩).after
      ((Operation.commitRegistration .epoch ada "ada").after (empty {})))

/-- Ada may come back: her path is taken over, and the guild keeps its own. -/
theorem commitRegistration_outcome_adaDeleted :
    adaDeleted.Reachable ∧ adaDeleted.Admits ada "ada" ∧
      (commitRegistration .epoch ada "ada").commit adaDeleted =
        (.ok (adaDeleted.account .epoch ada "ada"), adaDeleted.withAccount .epoch ada "ada") ∧
      ⟨2, 2, OwnerKind.organisation.code, "guild"⟩ ∈
        ((commitRegistration .epoch ada "ada").commit adaDeleted).2.namespaces.rows := by
  have reached : adaDeleted.Reachable := .step _ (.step _ (.step _ (.empty {})))
  have admits : adaDeleted.Admits ada "ada" := by decide +kernel
  have guild : ⟨2, 2, OwnerKind.organisation.code, "guild"⟩ ∈ adaDeleted.namespaces.rows := by
    decide +kernel
  obtain ⟨_, _, made, kept⟩ := commitRegistration_outcome reached .epoch ada "ada"
  exact ⟨reached, admits, Prod.ext (made admits).1 (made admits).2, kept _ guild (Or.inl rfl)⟩

end Database

end Gatehouse.Store
