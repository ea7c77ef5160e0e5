import Gatehouse.Proofs.Auth.Runs
import Gatehouse.Proofs.Store.History

/-! # What requests write

A request makes one operation of the store, or it writes nothing. Nothing is assumed of the store for that,
so what holds of every operation holds of every request: a user is verified only if an activation of it is
asked for, and deleted only if its deletion is.
-/

namespace Gatehouse.Auth

open Gatehouse.Store Gatehouse.Time

namespace Service

variable (service : Service)

theorem register_store (now : Instant) (salt : List UInt8) (r : Registration) (clientIp : String)
    (db : Database) : (service.register now salt r clientIp db).2 = db ∨
      (service.register now salt r clientIp db).2 =
        (Operation.commitRegistration now (service.newUser salt r clientIp) r.storedUsername).after db := by
  rw [register]
  cases permit r db with
  | error e => exact Or.inl rfl
  | ok => exact Or.inr rfl

theorem activate_store (now : Instant) (id : UserId) (db : Database) :
    (activate now id db).2 = db ∨ (activate now id db).2 = (Operation.activate now id).after db := by
  rw [activate]
  cases findAccount id db with
  | error e => exact Or.inl rfl
  | ok => exact Or.inr rfl

theorem signIn_store {now noted : Instant} {token : String} {request : LoginRequest} {clientIp : String}
    {db db' : Database} {outcome : Except Error LoginAnswer}
    (h : service.signIn now noted token request clientIp db = some (outcome, db')) :
    db' = db ∨ ∃ id data, db' = (Operation.commitLogin noted id clientIp data).after db := by
  rw [signIn] at h
  cases hc : service.credentials request db with
  | error e =>
      rw [hc] at h
      cases h
      exact Or.inl rfl
  | ok user =>
      rw [hc] at h
      obtain ⟨draft, _, opened⟩ := Option.map_eq_some_iff.mp h
      cases opened
      exact Or.inr ⟨user.id, draft.toSession user.id clientIp, rfl⟩

theorem reachable_of_signIn {now noted : Instant} {token : String} {request : LoginRequest} {clientIp : String}
    {db db' : Database} {outcome : Except Error LoginAnswer} (reached : db.Reachable)
    (h : service.signIn now noted token request clientIp db = some (outcome, db')) : db'.Reachable := by
  rcases service.signIn_store h with rfl | ⟨_, _, rfl⟩
  · exact reached
  · exact reached.step _

theorem call_register (j : Journal) (r : Registration) (clientIp : String) (draw : Draw) :
    (service.call j ⟨.register r clientIp, draw⟩).db =
      (service.register draw.now draw.salt r clientIp j.db).2 := by
  rw [call, perform]

theorem call_activate (j : Journal) (id : UserId) (draw : Draw) :
    (service.call j ⟨.activate id, draw⟩).db = (activate draw.now id j.db).2 := by
  rw [call, perform]

/-- The operation that a request makes, if it makes one. -/
inductive Makes : Call → Operation → Prop
  | register (r : Registration) (clientIp : String) (draw : Draw) :
      Makes ⟨.register r clientIp, draw⟩
        (.commitRegistration draw.now (service.newUser draw.salt r clientIp) r.storedUsername)
  | signIn (login : LoginRequest) (clientIp : String) (draw : Draw) (id : UserId) (data : NewSession) :
      Makes ⟨.signIn login clientIp, draw⟩ (.commitLogin draw.noted id clientIp data)
  | activate (id : UserId) (draw : Draw) : Makes ⟨.activate id, draw⟩ (.activate draw.now id)
  | softDelete (id : UserId) (draw : Draw) : Makes ⟨.softDelete id, draw⟩ (.softDelete draw.now id)

theorem call_store (j : Journal) (c : Call) :
    (service.call j c).db = j.db ∨ ∃ o, service.Makes c o ∧ (service.call j c).db = o.after j.db := by
  obtain ⟨request, draw⟩ := c
  cases request with
  | register r clientIp =>
      rw [call_register]
      rcases service.register_store draw.now draw.salt r clientIp j.db with same | made
      · exact Or.inl same
      · exact Or.inr ⟨_, .register r clientIp draw, made⟩
  | signIn login clientIp =>
      cases hs : service.signIn draw.now draw.noted draw.token login clientIp j.db with
      | none =>
          refine Or.inl ?_
          rw [call, perform, hs]
          rfl
      | some result =>
          obtain ⟨outcome, db'⟩ := result
          have left : (service.call j ⟨.signIn login clientIp, draw⟩).db = db' := by
            rw [call, perform, hs]
            rfl
          rw [left]
          rcases service.signIn_store hs with same | ⟨id, data, made⟩
          · exact Or.inl same
          · exact Or.inr ⟨_, .signIn login clientIp draw id data, made⟩
  | activate id =>
      rw [call_activate]
      rcases activate_store draw.now id j.db with same | made
      · exact Or.inl same
      · exact Or.inr ⟨_, .activate id draw, made⟩
  | authenticate token => exact Or.inl rfl
  | softDelete id => exact Or.inr ⟨_, .softDelete id draw, rfl⟩

end Service

/-! ## Refusals -/

/-- A change is made as a whole or not at all, however many statements it has. -/
theorem ofChange_of_error {α : Type} {change : Change α} {refuse : Store.Error → Error} {db db' : Database}
    {e : Error} (h : Action.ofChange change refuse db = (.error e, db')) : db' = db := by
  rw [Action.ofChange] at h
  cases made : change db with
  | ok result =>
      obtain ⟨answer, changed⟩ := result
      rw [Change.commit_of_ok made] at h
      cases h
  | error cause =>
      rw [Change.commit_of_error made] at h
      cases h
      rfl

namespace Service

variable {service : Service} {now noted : Instant} {db db' : Database} {e : Error}

theorem openSession_of_error {user : User} {draft : Draft} {clientIp : String}
    (h : openSession noted user draft clientIp db = (.error e, db')) : db' = db := by
  rw [openSession, Action.ofChange] at h
  cases made : Database.commitLogin noted user.id clientIp (draft.toSession user.id clientIp) db with
  | ok result =>
      obtain ⟨answer, changed⟩ := result
      rw [Change.commit_of_ok made] at h
      cases h
  | error cause =>
      rw [Change.commit_of_error made] at h
      cases h
      rfl

theorem signIn_of_error {token : String} {request : LoginRequest} {clientIp : String}
    (h : service.signIn now noted token request clientIp db = some (.error e, db')) : db' = db := by
  rw [signIn] at h
  cases hc : service.credentials request db with
  | error cause =>
      rw [hc] at h
      cases h
      rfl
  | ok user =>
      rw [hc] at h
      obtain ⟨draft, _, opened⟩ := Option.map_eq_some_iff.mp h
      exact openSession_of_error opened

theorem register_of_error {salt : List UInt8} {r : Registration} {clientIp : String}
    (h : service.register now salt r clientIp db = (.error e, db')) : db' = db := by
  rw [register] at h
  cases hp : permit r db with
  | error cause =>
      rw [hp] at h
      cases h
      rfl
  | ok =>
      rw [hp] at h
      exact ofChange_of_error h

end Service

/-! ## Activations -/

namespace Service

variable {db : Database}

/--
An activation finds nobody, or a user whose row cannot be read, or a user who is verified now. In the first two
cases nothing is changed, and in the last nothing either if the user had been verified before.
-/
theorem activate_cases (opened : db.requireOpen = .ok ()) (there : db.require .users = .ok ()) (now : Instant)
    (id : UserId) :
    (∀ r ∈ db.users.rows, r.lives id = false) ∧ activate now id db = (.error (.unknown id.text), db) ∨
    (∃ r ∈ db.users.rows, r.lives id = true ∧ ¬ r.Legible) ∧
      (∃ e, activate now id db = (.error (.store e), db)) ∨
    (∃ r ∈ db.users.rows, r.lives id = true ∧ r.Legible) ∧
      activate now id db = (.ok (db.users.any (UserRow.awaits id)), db.withVerified now id) := by
  have asked : Database.userById id db = (db.users.find? (UserRow.lives id)).mapM UserRow.toUser := by
    simp only [Database.userById, Database.userWhere, opened, there, ok_bind]
    rfl
  cases found : db.users.find? (UserRow.lives id) with
  | none =>
      refine Or.inl ⟨Table.find?_eq_none.mp found, ?_⟩
      rw [found] at asked
      simp only [activate, findAccount, Inquiry.ofQuery, asked]
      rfl
  | some r =>
      have hr := List.mem_of_find?_eq_some found
      have lives := List.find?_some found
      rw [found, Option.mapM_some] at asked
      cases read : r.toUser with
      | error e =>
          have illegible : ¬ r.Legible := by
            intro legible
            obtain ⟨user, ok⟩ := legible.toUser
            rw [read] at ok
            cases ok
          refine Or.inr (Or.inl ⟨⟨r, hr, lives, illegible⟩, e, ?_⟩)
          rw [read] at asked
          simp only [activate, findAccount, Inquiry.ofQuery, asked]
          rfl
      | ok user =>
          refine Or.inr (Or.inr ⟨⟨r, hr, lives, UserRow.legible_of_toUser read⟩, ?_⟩)
          have made : Database.activate now id db =
              .ok (db.users.any (UserRow.awaits id), db.withVerified now id) := by
            simp only [Database.activate, updateUsers, opened, there, ok_bind]
            rfl
          rw [read] at asked
          simp only [activate, findAccount, Inquiry.ofQuery, asked, verifyAccount, Action.ofChange,
            Change.commit_of_ok made]
          rfl

/-- Who awaits nothing is not changed. -/
theorem withVerified_of_none_awaits {now : Instant} {id : UserId} (h : db.users.any (UserRow.awaits id) = false) :
    db.withVerified now id = db := by
  rw [Database.withVerified, Table.modify_eq_self _ h]

end Service

/-! ## Rows over a run -/

/-- What some requests leave of the row of a user. -/
structure Leaves (calls : List Call) (r r' : UserRow) : Prop extends r.Becomes r' where
  activation : r'.verifiedAt = r.verifiedAt ∨ ∃ c ∈ calls, c.request = .activate ⟨r.id⟩
  deletion : r'.deletedAt = r.deletedAt ∨ ∃ c ∈ calls, c.request = .softDelete ⟨r.id⟩

theorem Leaves.refl (calls : List Call) (r : UserRow) : Leaves calls r r :=
  ⟨UserRow.Becomes.refl r, Or.inl rfl, Or.inl rfl⟩

theorem Leaves.cons {c : Call} {calls : List Call} {r r' r'' : UserRow} (h : Leaves [c] r r')
    (h' : Leaves calls r' r'') : Leaves (c :: calls) r r'' where
  toBecomes := h.toBecomes.trans h'.toBecomes
  activation := by
    rcases h'.activation with same | ⟨c', among, asked⟩
    · rcases h.activation with same' | ⟨c', here, asked⟩
      · exact Or.inl (same.trans same')
      · exact Or.inr ⟨c', List.mem_cons.mpr (Or.inl (List.mem_singleton.mp here)), asked⟩
    · exact Or.inr ⟨c', List.mem_cons_of_mem c among, by rw [asked, h.id]⟩
  deletion := by
    rcases h'.deletion with same | ⟨c', among, asked⟩
    · rcases h.deletion with same' | ⟨c', here, asked⟩
      · exact Or.inl (same.trans same')
      · exact Or.inr ⟨c', List.mem_cons.mpr (Or.inl (List.mem_singleton.mp here)), asked⟩
    · exact Or.inr ⟨c', List.mem_cons_of_mem c among, by rw [asked, h.id]⟩

theorem Leaves.undeleted {calls : List Call} {r r' : UserRow} (h : Leaves calls r r') (alive : r.deletedAt = none)
    (kept : ∀ c ∈ calls, c.request ≠ .softDelete ⟨r.id⟩) : r'.isDeleted = false := by
  rcases h.deletion with same | ⟨c, hc, asked⟩
  · rw [UserRow.isDeleted, same, alive]
    rfl
  · exact absurd asked (kept c hc)

namespace Service

variable (service : Service)

/-- An operation that a request makes turns rows as the request allows. -/
theorem Makes.leaves {service : Service} {c : Call} {o : Operation} (makes : service.Makes c o)
    {r r' : UserRow} (turned : o.Turns r r') : Leaves [c] r r' where
  toBecomes := turned.becomes
  activation := by
    rcases turned.verifiedAt with same | ⟨now, rfl⟩
    · exact Or.inl same
    · cases makes with
      | activate id draw => exact Or.inr ⟨_, List.mem_singleton_self _, rfl⟩
  deletion := by
    rcases turned.deletedAt with same | ⟨now, rfl⟩
    · exact Or.inl same
    · cases makes with
      | softDelete id draw => exact Or.inr ⟨_, List.mem_singleton_self _, rfl⟩

theorem call_users_grow (j : Journal) (c : Call) :
    j.db.users.Grows (Leaves [c]) (fun _ => True) (service.call j c).db.users := by
  rcases service.call_store j c with same | ⟨o, makes, made⟩
  · rw [same]
    exact Table.grows_refl (Leaves.refl [c]) j.db.users
  · rw [made]
    exact (o.users_grow j.db).imp (fun _ _ turned => makes.leaves turned) fun _ _ => trivial

/-- Whatever the run, users stay what they are, and what is noted of them has been asked for. -/
theorem after_users_grow (j : Journal) (calls : List Call) :
    j.db.users.Grows (Leaves calls) (fun _ => True) (service.after j calls).db.users := by
  induction calls generalizing j with
  | nil => exact Table.grows_refl (Leaves.refl []) j.db.users
  | cons c calls ih =>
      exact (service.call_users_grow j c).comp (ih (service.call j c)) (fun _ _ _ => Leaves.cons)
        (fun _ _ _ _ => trivial) fun _ h => h

end Service

end Gatehouse.Auth
