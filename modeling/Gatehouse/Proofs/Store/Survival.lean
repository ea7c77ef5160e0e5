import Gatehouse.Proofs.Store.History

/-! # What no operation undoes

Rows are never removed and never get another number. A user keeps all it was made of, and keeps the note of its
verification and of its deletion once there is one; a session stays as it is. A namespace may change hands, but
only through a registration under its path, and only from a deleted user to the user that registers. Stores that
operations have led to are all that is assumed.
-/

namespace Gatehouse.Store

open Gatehouse.Time

namespace Operation

/-- A namespace goes from a deleted user to the one whom a registration under its path has just added. -/
def Transfers (o : Operation) (db : Database) (n n' : NamespaceRow) : Prop :=
  n.ownerType = OwnerKind.user.code ∧
    (∃ u ∈ db.users.rows, u.id = n.ownerId ∧ u.isDeleted = true) ∧
    ∃ now data, o = .commitRegistration now data n.path ∧
      ∃ u ∈ (o.after db).users.rows, u.id = n'.ownerId ∧ u.username = data.username ∧ db.users.Newer u

/-- What an operation may make of the row of a namespace. -/
structure Passes (o : Operation) (db : Database) (n n' : NamespaceRow) : Prop where
  id : n'.id = n.id
  ownerType : n'.ownerType = n.ownerType
  path : n'.path = n.path
  owner : n'.ownerId = n.ownerId ∨ o.Transfers db n n'

theorem Passes.refl (o : Operation) (db : Database) (n : NamespaceRow) : o.Passes db n n :=
  ⟨rfl, rfl, rfl, Or.inl rfl⟩

/-- Nothing but a registration touches a namespace that is there. -/
theorem namespaces_grow_of_not_registration {o : Operation}
    (unlike : ∀ now data path, o ≠ .commitRegistration now data path) (db : Database) :
    db.namespaces.Grows Eq (fun _ => True) (o.after db).namespaces := by
  have untouched : db.namespaces.Grows Eq (fun _ => True) db.namespaces :=
    Table.grows_refl Eq.refl db.namespaces
  rcases o.after_cases db with same | made
  · rw [same]
    exact untouched
  · generalize o.after db = db' at made
    cases made with
    | createNamespace data => exact Table.grows_append data.toRow Eq.refl db.namespaces trivial
    | commitRegistration now data path => exact absurd rfl (unlike now data path)
    | _ => exact untouched

end Operation

namespace Database

variable {db : Database}

private theorem transfers_of_admits (h : db.Sound) {now : Instant} {data : NewUser} {n : NamespaceRow}
    (hn : n ∈ db.namespaces.rows) (ha : db.Admits data n.path) :
    (Operation.commitRegistration now data n.path).Transfers db n { n with ownerId := db.users.nextKey } := by
  obtain ⟨kind, gone⟩ := ha.vacant n hn rfl
  have left : (Operation.commitRegistration now data n.path).after db = db.withAccount now data n.path := by
    rw [Operation.after, Change.after, Change.commit_of_ok (commitRegistration_of_admits h now ha)]
  refine ⟨kind, gone, now, data, rfl, db.accountRow now data n.path, ?_, rfl, rfl, ?_⟩
  · rw [left]
    exact mem_withAccount_users.mpr (Or.inr rfl)
  · intro u hu
    exact h.users_ordered.key_lt_nextKey hu

private theorem namespaces_grow_register (h : db.Sound) (now : Instant) (data : NewUser) (path : String) :
    db.namespaces.Grows ((Operation.commitRegistration now data path).Passes db) (fun _ => True)
      ((Operation.commitRegistration now data path).after db).namespaces := by
  have stays := Operation.Passes.refl (.commitRegistration now data path) db
  rw [Operation.after, Change.after]
  by_cases ha : db.Admits data path
  · rw [Change.commit_of_ok (commitRegistration_of_admits h now ha)]
    unfold withAccount
    -- the path is new, or its namespace is the only row that changes
    cases hs : db.homeAt? path with
    | none => exact Table.grows_append _ stays db.namespaces trivial
    | some home =>
        apply Table.grows_modify_of_mem _ stays
        intro n hn hp
        have named := of_decide_eq_true hp
        subst named
        exact ⟨rfl, rfl, rfl, Or.inr (transfers_of_admits h hn ha)⟩
  · obtain ⟨e, refused, _⟩ := commitRegistration_of_not_admits h now ha
    rw [Change.commit_of_error refused]
    exact Table.grows_refl stays db.namespaces

theorem Sound.namespaces_grow (h : db.Sound) (o : Operation) :
    db.namespaces.Grows (o.Passes db) (fun _ => True) (o.after db).namespaces := by
  by_cases registers : ∃ now data path, o = .commitRegistration now data path
  · obtain ⟨now, data, path, rfl⟩ := registers
    exact namespaces_grow_register h now data path
  · have unlike : ∀ now data path, o ≠ .commitRegistration now data path :=
      fun now data path same => registers ⟨now, data, path, same⟩
    apply (Operation.namespaces_grow_of_not_registration unlike db).imp
    · rintro n _ rfl
      exact Operation.Passes.refl o db n
    · exact fun _ h => h

/--
Whatever an operation does and however it ends, every row stands where it stood: a user with all it was made of
and with what has been noted once, a session unchanged, a namespace with at most another owner. Rows that are
new have greater numbers than all that were there.
-/
theorem write_once (reached : db.Reachable) (o : Operation) :
    db.users.Grows UserRow.Becomes db.users.Newer (o.after db).users ∧
      db.sessions.Grows Eq db.sessions.Newer (o.after db).sessions ∧
      db.namespaces.Grows (o.Passes db) db.namespaces.Newer (o.after db).namespaces := by
  have before := reached.sound
  have after : (o.after db).Sound := before.after o
  have users : db.users.Grows UserRow.Becomes (fun _ => True) (o.after db).users :=
    (o.users_grow db).imp (fun _ _ turned => turned.becomes) fun _ _ => trivial
  refine ⟨users.newer after.users_ordered ?_, (o.sessions_grow db).newer after.sessions_ordered ?_,
    (before.namespaces_grow o).newer after.namespaces_ordered ?_⟩
  · intro u u' became
    exact became.id
  · rintro s _ rfl
    rfl
  · intro n n' passes
    exact passes.id

/-- The namespace of Ada, who has been deleted, is hers again once she has come back as another user. -/
theorem write_once_adaDeleted :
    adaDeleted.Reachable ∧ ∃ n n',
      adaDeleted.namespaces.rows[0]? = some n ∧
        ((Operation.commitRegistration .epoch ada "ada").after adaDeleted).namespaces.rows[0]? = some n' ∧
          (Operation.commitRegistration .epoch ada "ada").Transfers adaDeleted n n' := by
  have reached : adaDeleted.Reachable := .step _ (.step _ (.step _ (.empty {})))
  have stored : adaDeleted.namespaces.rows[0]? = some ⟨1, 1, OwnerKind.user.code, "ada"⟩ := by
    decide +kernel
  have moved : ∀ n' ∈ ((Operation.commitRegistration .epoch ada "ada").after adaDeleted).namespaces.rows[0]?,
      n'.ownerId ≠ 1 := by
    decide +kernel
  obtain ⟨_, _, namespaces⟩ := write_once reached (.commitRegistration .epoch ada "ada")
  obtain ⟨n', stored', passes⟩ := namespaces.kept 0 _ stored
  exact ⟨reached, _, n', stored, stored', passes.owner.resolve_left (moved n' stored')⟩

end Database

end Gatehouse.Store
