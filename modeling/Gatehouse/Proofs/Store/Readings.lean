import Gatehouse.Proofs.Records.Dealing
import Gatehouse.Proofs.Store.Tokens

/-! # What queries for users find

The queries look for a number, a name or an address, for a page of all users, or for the administrators, each
with a test of its own. They agree because no two undeleted users have the same number, name or address: what
one of them finds is what all of them find. Nobody deleted is ever found. Reading a row back can fail for the
instants in it only, so on clocks that show four digits of the year every query answers, but for one: the
namespaces of the administrators are asked for by a statement that names all of them, and where they are more than
the engine binds to a statement, it refuses.
-/

namespace Gatehouse.Store

open Gatehouse.Time

namespace UserRow

theorem numbers_of_mapM {rows : List UserRow} {users : List User} (read : rows.mapM toUser = .ok users) :
    users.map (·.id.number) = rows.map UserRow.id := by
  rw [mapM_eq_ok_iff] at read
  induction read with
  | nil => rfl
  | cons here _ ih => rw [List.map_cons, List.map_cons, ih, (readAs_of_toUser here).id]

end UserRow

/-- What a row with the code of a kind is read as. -/
def NamespaceRow.under (kind : OwnerKind) (r : NamespaceRow) : Namespace :=
  ⟨⟨r.id⟩, r.ownerId, kind, r.path⟩

theorem NamespaceRow.toNamespace_eq {kind : OwnerKind} {r : NamespaceRow} (code : r.ownerType = kind.code) :
    r.toNamespace = .ok (r.under kind) := by
  rw [toNamespace, code, OwnerKind.ofCode?_code]
  rfl

namespace Database

variable {db : Database}

/-! ## Nobody who is deleted -/

def listed (db : Database) : List UserRow :=
  db.users.filter fun r => !r.isDeleted

theorem mem_listed {r : UserRow} : r ∈ db.listed ↔ r ∈ db.users.rows ∧ r.isDeleted = false := by
  simp [listed, Table.filter]

def pageRows (db : Database) (page per : Nat) : List UserRow :=
  (db.listed.drop (min (min (page * per) greatestWord) greatestCount)).take (min per greatestCount)

def adminRows (db : Database) : List UserRow :=
  db.listed.filter fun r => r.isAdmin = 1

theorem adminRows_eq (db : Database) : (db.users.filter fun r => r.isAdmin = 1 && !r.isDeleted) = db.adminRows :=
  List.filter_filter.symm

theorem read_of_admins {binds : Nat} {accounts : List UserWithNamespace} (found : admins binds db = .ok accounts) :
    db.adminRows.mapM UserRow.toUser = .ok (accounts.map (·.user)) := by
  rw [admins] at found
  obtain ⟨_, _, found⟩ := exists_of_bind_eq_ok found
  obtain ⟨_, _, found⟩ := exists_of_bind_eq_ok found
  obtain ⟨users, read, found⟩ := exists_of_bind_eq_ok found
  obtain ⟨namespaces, _, found⟩ := exists_of_bind_eq_ok found
  cases found
  rw [attachNamespaces_users, ← adminRows_eq]
  exact read

/-- The number, the name and the address of an undeleted row lead to that row. -/
theorem Sound.lookups_agree (h : db.Sound) {r : UserRow} (hr : r ∈ db.users.rows) (alive : r.isDeleted = false) :
    userById ⟨r.id⟩ db = r.toUser.map some ∧ userByUsername r.username db = r.toUser.map some ∧
      userByEmail r.email db = r.toUser.map some := by
  refine ⟨userWhere_of_unique h.ready hr alive (decide_eq_true rfl) ?_,
    userWhere_of_unique h.ready hr alive (decide_eq_true rfl) ?_,
    userWhere_of_unique h.ready hr alive (decide_eq_true rfl) ?_⟩
  · intro s hs _ same
    exact h.users_ordered.eq_of_key_eq hs hr (of_decide_eq_true same)
  · intro s hs alive' same
    exact h.usernames s hs r hr alive' alive (of_decide_eq_true same)
  · intro s hs alive' same
    exact h.emails s hs r hr alive' alive (of_decide_eq_true same)

/-! ## One place in the lists -/

theorem Sound.listed_rising (h : db.Sound) : db.listed.Pairwise fun r s => r.id < s.id :=
  h.users_ordered.rising.sublist List.filter_sublist

theorem pageRows_sublist (db : Database) (page per : Nat) : (db.pageRows page per).Sublist db.listed :=
  (List.take_sublist _ _).trans (List.drop_sublist _ _)

theorem userPage_eq (h : db.Ready) (page per : Nat) :
    userPage page per db = (db.pageRows page per).mapM UserRow.toUser := by
  simp only [userPage, h.requireOpen, h.require, ok_bind]
  rfl

/-- No operation keeps another number for a flag than one or zero. -/
theorem Reachable.isAdmin_cases (h : db.Reachable) : ∀ r ∈ db.users.rows, r.isAdmin = 0 ∨ r.isAdmin = 1 := by
  have made : ∀ {r : UserRow} {data : NewUser} {now : Instant} {k : Int}, r.unlinked = data.toRow now k →
      r.isAdmin = 0 ∨ r.isAdmin = 1 := by
    intro r data now k same
    have column : r.isAdmin = if data.isAdmin then 1 else 0 := congrArg UserRow.isAdmin same
    rw [column]
    split
    · exact Or.inr rfl
    · exact Or.inl rfl
  induction h with
  | empty names =>
      intro r hr
      cases hr
  | @step db o _ ih =>
      intro r' hr'
      rcases (o.users_grow db).mem_back hr' with ⟨r, hr, turned⟩ | added
      · rw [turned.becomes.isAdmin]
        exact ih r hr
      · cases added with
        | created now data k same => exact made same
        | registered now data path k same => exact made same

/-! ## What one statement can name -/

/-- A statement that binds so many values at most can name so many owners of a kind. -/
def CanName (binds owners : Nat) : Prop :=
  owners = 0 ∨ owners < binds

instance (binds owners : Nat) : Decidable (CanName binds owners) :=
  inferInstanceAs (Decidable (_ ∨ _))

def ownedRows (db : Database) (kind : OwnerKind) (owners : List Int) : List NamespaceRow :=
  db.namespaces.filter fun r => r.ownerType = kind.code && owners.contains r.ownerId

theorem mem_ownedRows {kind : OwnerKind} {owners : List Int} {r : NamespaceRow} :
    r ∈ db.ownedRows kind owners ↔ r ∈ db.namespaces.rows ∧ ∃ owner ∈ owners, r.ownedBy owner kind = true := by
  simp only [ownedRows, Table.filter, List.mem_filter, Bool.and_eq_true, decide_eq_true_eq, List.contains_iff_mem,
    NamespaceRow.ownedBy_eq_true]
  constructor
  · rintro ⟨hr, code, among⟩
    exact ⟨hr, r.ownerId, among, rfl, code⟩
  · rintro ⟨hr, owner, among, rfl, code⟩
    exact ⟨hr, code, among⟩

theorem ownedRows_nil (kind : OwnerKind) : db.ownedRows kind [] = [] := by
  rw [List.eq_nil_iff_forall_not_mem]
  intro r hr
  obtain ⟨_, owner, among, _⟩ := mem_ownedRows.mp hr
  cases among

variable {binds : Nat} {owners : List Int}

theorem namespacesByOwners_eq (h : db.Ready) (kind : OwnerKind) (named : CanName binds owners.length) :
    namespacesByOwners binds kind owners db = .ok ((db.ownedRows kind owners).map (·.under kind)) := by
  have read : (db.ownedRows kind owners).mapM NamespaceRow.toNamespace =
      .ok ((db.ownedRows kind owners).map (·.under kind)) := by
    rw [mapM_eq_ok_iff, List.forall₂_map_right_iff, List.forall₂_same]
    intro r hr
    obtain ⟨_, owner, _, owned⟩ := mem_ownedRows.mp hr
    exact NamespaceRow.toNamespace_eq (NamespaceRow.ownedBy_eq_true.mp owned).2
  rw [namespacesByOwners]
  split
  · -- without owners the query is not made, and would have found no row
    rename_i nobody
    rw [nobody, ownedRows_nil]
    rfl
  · rename_i somebody
    have within : ¬ binds < owners.length + 1 := by
      have := List.length_pos_iff.mpr somebody
      rcases named with none | fewer <;> omega
    simp only [h.requireOpen, h.require, ok_bind, if_neg within]
    exact read

theorem namespacesByOwners_of_not_canName (h : db.Ready) (kind : OwnerKind)
    (tooMany : ¬ CanName binds owners.length) :
    namespacesByOwners binds kind owners db = .error .tooManyValues := by
  obtain ⟨somebody, beyond⟩ := not_or.mp tooMany
  have more : binds < owners.length + 1 := by omega
  rw [namespacesByOwners, if_neg fun nobody => somebody (List.length_eq_zero_iff.mpr nobody)]
  simp only [h.requireOpen, ok_bind, if_pos more]
  rfl

/-! ## Stores that can be read -/

theorem adminRows_sublist (db : Database) : db.adminRows.Sublist db.listed :=
  List.filter_sublist

theorem Legible.mapM_toUser (hl : db.Legible) {rows : List UserRow} (part : rows.Sublist db.listed) :
    ∃ users, rows.mapM UserRow.toUser = .ok users :=
  exists_mapM_eq_ok fun r hr => (hl r (mem_listed.mp (part.subset hr)).1).toUser

theorem length_ownerIds {rows : List UserRow} {users : List User} (read : rows.mapM UserRow.toUser = .ok users) :
    (ownerIds users).length = rows.length := by
  rw [ownerIds, UserRow.numbers_of_mapM read, List.length_map]

theorem admins_eq (h : db.Ready) (binds : Nat) : admins binds db =
    db.adminRows.mapM UserRow.toUser >>= fun users =>
      (namespacesByOwners binds .user (ownerIds users) db).map fun found => attachNamespaces found users := by
  simp only [admins, h.requireOpen, h.require, ok_bind, adminRows_eq]
  rfl

theorem Legible.admins (hl : db.Legible) (h : db.Ready) (named : CanName binds db.adminRows.length) :
    ∃ accounts, admins binds db = .ok accounts := by
  obtain ⟨users, read⟩ := hl.mapM_toUser db.adminRows_sublist
  rw [← length_ownerIds read] at named
  rw [admins_eq h, read, ok_bind, namespacesByOwners_eq h .user named]
  exact ⟨_, rfl⟩

theorem admins_of_not_canName (h : db.Ready) {users : List User} (read : db.adminRows.mapM UserRow.toUser = .ok users)
    (tooMany : ¬ CanName binds db.adminRows.length) : admins binds db = .error .tooManyValues := by
  rw [← length_ownerIds read] at tooMany
  rw [admins_eq h, read, ok_bind, namespacesByOwners_of_not_canName h .user tooMany]
  rfl

end Database

end Gatehouse.Store
