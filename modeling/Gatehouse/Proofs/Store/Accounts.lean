import Gatehouse.Proofs.Store.Constraints

/-! # The outcome of a registration in a sound store

A registration is admitted when name and address are free, the path is new or belongs to a deleted user,
and nobody has filed a namespace under the number that the new user gets. An admitted registration is
made, and the store afterwards is given here in full; every other one is refused as a conflict. The
store stays sound.
-/

namespace Gatehouse.Store

open Gatehouse.Time

/-- When a registration for a path can be made. -/
structure Database.Admits (db : Database) (data : NewUser) (path : String) : Prop where
  /-- No undeleted user has the name or the address. -/
  free : ∀ r ∈ db.users.rows, r.isDeleted = false →
    r.username ≠ data.username ∧ r.email ≠ data.email
  /-- A namespace of the path belongs to a deleted user. -/
  vacant : ∀ n ∈ db.namespaces.rows, n.path = path →
    n.ownerType = OwnerKind.user.code ∧ ∃ r ∈ db.users.rows, r.id = n.ownerId ∧ r.isDeleted = true
  /-- No namespace is filed under the next user. -/
  unhoused : ∀ n ∈ db.namespaces.rows,
    ¬ (n.ownerId = db.users.nextKey ∧ n.ownerType = OwnerKind.user.code)

namespace Database

instance (db : Database) (data : NewUser) (path : String) : Decidable (db.Admits data path) :=
  decidable_of_iff
    ((∀ r ∈ db.users.rows, r.isDeleted = false →
        r.username ≠ data.username ∧ r.email ≠ data.email) ∧
      (∀ n ∈ db.namespaces.rows, n.path = path →
        n.ownerType = OwnerKind.user.code ∧
          ∃ r ∈ db.users.rows, r.id = n.ownerId ∧ r.isDeleted = true) ∧
      ∀ n ∈ db.namespaces.rows,
        ¬ (n.ownerId = db.users.nextKey ∧ n.ownerType = OwnerKind.user.code))
    ⟨fun h => ⟨h.1, h.2.1, h.2.2⟩, fun h => ⟨h.free, h.vacant, h.unhoused⟩⟩

def IsFree (db : Database) (username email : String) : Prop :=
  ∀ r ∈ db.users.rows, r.isDeleted = false → r.username ≠ username ∧ r.email ≠ email

def homeAt? (db : Database) (path : String) : Option NamespaceRow :=
  db.namespaces.find? fun n => n.path = path

/-- The number of the namespace of a path, or the one that a new namespace gets. -/
def homeKey (db : Database) (path : String) : Int :=
  match db.homeAt? path with
  | some home => home.id
  | none => db.namespaces.nextKey

/--
Whether a row is of a deleted user who is linked to a namespace. A number under which no namespace is
filed links to none.
-/
def isReleased (home : Option NamespaceRow) (r : UserRow) : Bool :=
  r.isDeleted && home.any fun n => r.namespaceId = some n.id

/-- Deleted users are no longer linked to a namespace that is taken over. -/
def released (home : Option NamespaceRow) (r : UserRow) : UserRow :=
  if isReleased home r then r.unlinked else r

/-- The row of a user registered with a path. -/
def accountRow (db : Database) (now : Instant) (data : NewUser) (path : String) : UserRow :=
  { data.toRow now db.users.nextKey with namespaceId := some (db.homeKey path) }

/--
The store with a user registered with a path. The user is new; the namespace of the path changes its
owner where there is one, and is new otherwise.
-/
def withAccount (db : Database) (now : Instant) (data : NewUser) (path : String) : Database :=
  { db with
    users :=
      ⟨db.users.rows.map (released (db.homeAt? path)) ++ [db.accountRow now data path],
        db.users.nextKey⟩
    namespaces :=
      match db.homeAt? path with
      | some _ =>
        db.namespaces.modify (fun n => n.path = path) fun n => { n with ownerId := db.users.nextKey }
      | none => db.namespaces.append (NewNamespace.toRow ⟨db.users.nextKey, .user, path⟩) }

def account (db : Database) (now : Instant) (data : NewUser) (path : String) : UserWithNamespace where
  user := { data.toUser now ⟨db.users.nextKey⟩ with namespaceId := some ⟨db.homeKey path⟩ }
  home := some ⟨⟨db.homeKey path⟩, db.users.nextKey, .user, path⟩

variable {db : Database} {now : Instant} {data : NewUser} {path : String}

theorem not_isFree_iff {username email : String} : ¬ db.IsFree username email ↔
    ∃ u ∈ db.users.rows, u.isDeleted = false ∧ (u.username = username ∨ u.email = email) := by
  constructor
  · intro held
    apply Classical.byContradiction
    intro nobody
    apply held
    intro u hu hd
    exact ⟨fun he => nobody ⟨u, hu, hd, Or.inl he⟩, fun he => nobody ⟨u, hu, hd, Or.inr he⟩⟩
  · rintro ⟨u, hu, hd, he | he⟩ free
    · exact (free u hu hd).1 he
    · exact (free u hu hd).2 he

@[simp] theorem accountRow_name : (db.accountRow now data path).name = data.name := rfl

@[simp] theorem released_id (home : Option NamespaceRow) (r : UserRow) : (released home r).id = r.id := by
  unfold released
  split <;> rfl

@[simp] theorem released_username (home : Option NamespaceRow) (r : UserRow) :
    (released home r).username = r.username := by
  unfold released
  split <;> rfl

@[simp] theorem released_email (home : Option NamespaceRow) (r : UserRow) :
    (released home r).email = r.email := by
  unfold released
  split <;> rfl

@[simp] theorem released_isDeleted (home : Option NamespaceRow) (r : UserRow) :
    (released home r).isDeleted = r.isDeleted := by
  unfold released
  split <;> rfl

/-! ## The namespace of the path -/

theorem homeAt?_eq_none : db.homeAt? path = none ↔ ∀ n ∈ db.namespaces.rows, n.path ≠ path := by
  simp [homeAt?, Table.find?_eq_none]

theorem homeAt?_mem {home : NamespaceRow} (h : db.homeAt? path = some home) :
    home ∈ db.namespaces.rows ∧ home.path = path := by
  have hp := List.find?_some h
  exact ⟨List.mem_of_find?_eq_some h, by simpa using hp⟩

theorem Sound.homeAt?_eq_some (h : db.Sound) {n : NamespaceRow} (hn : n ∈ db.namespaces.rows)
    (hp : n.path = path) : db.homeAt? path = some n := by
  apply Table.find?_eq_some_of_unique hn
  · simpa using hp
  · intro m hm hq
    exact h.paths m hm n hn trivial trivial ((of_decide_eq_true hq).trans hp.symm)

theorem ownerDeleted_eq_true {owner : Int} :
    db.ownerDeleted owner = true ↔ ∃ r ∈ db.users.rows, r.id = owner ∧ r.isDeleted = true := by
  simp [ownerDeleted]

theorem isVacant_eq_true {n : NamespaceRow} :
    db.isVacant path n = true ↔ n.path = path ∧ n.ownerType = OwnerKind.user.code ∧
      ∃ r ∈ db.users.rows, r.id = n.ownerId ∧ r.isDeleted = true := by
  simp [isVacant, ownerDeleted_eq_true, and_assoc]

/-- A user who is not deleted makes no namespace vacant. -/
theorem isVacant_addUser {make : Int → UserRow} (hd : (make db.users.nextKey).isDeleted = false) :
    isVacant { db with users := db.users.append make } path = db.isVacant path := by
  funext n
  simp [isVacant, ownerDeleted, Table.any, hd]

theorem Admits.isVacant_eq (ha : db.Admits data path) {n : NamespaceRow} (hn : n ∈ db.namespaces.rows) :
    db.isVacant path n = decide (n.path = path) := by
  by_cases hp : n.path = path
  · rw [decide_eq_true hp]
    exact isVacant_eq_true.mpr ⟨hp, ha.vacant n hn hp⟩
  · rw [decide_eq_false hp]
    simp [isVacant, hp]

/-! ## Registrations that are made -/

section Admitted

/-- The store between the statement that adds the user and those for its namespace. -/
private abbrev withUser (db : Database) (now : Instant) (data : NewUser) : Database :=
  { db with users := db.users.append (data.toRow now) }

private theorem insertUser_of_no_clash (h : db.Sound) (now : Instant)
    (hc : db.users.any (UserRow.clashes data) = false) :
    insertUser now data db = .ok (data.toUser now ⟨db.users.nextKey⟩, withUser db now data) := by
  rw [insertUser_eq h.ready, hc]
  rfl

theorem no_clash_iff : db.users.any (UserRow.clashes data) = false ↔
    ∀ r ∈ db.users.rows, r.isDeleted = false → r.username ≠ data.username ∧ r.email ≠ data.email := by
  rw [Table.any_eq_false]
  constructor
  · intro h r hr hd
    have hc := h r hr
    simp only [UserRow.clashes, hd, Bool.not_false, Bool.true_and, Bool.or_eq_false_iff,
      decide_eq_false_iff_not] at hc
    exact ⟨hc.2, hc.1⟩
  · intro h r hr
    rw [← Bool.not_eq_true, UserRow.clashes_eq_true]
    rintro ⟨hd, he | hu⟩
    · exact (h r hr hd).2 he
    · exact (h r hr hd).1 hu

private theorem isVacant_withUser :
    (withUser db now data).isVacant path = db.isVacant path :=
  isVacant_addUser rfl

private theorem takeOver_of_not_vacant (h : db.Sound)
    (hv : db.namespaces.any (db.isVacant path) = false) :
    takeOverNamespace path db.users.nextKey (withUser db now data) =
      .ok (none, withUser db now data) := by
  have ready : (withUser db now data).Ready := h.ready
  rw [takeOverNamespace_eq ready, isVacant_withUser, if_neg (by rw [hv]; decide)]

/-- The number of the new user is linked to the namespace, and no other user is. -/
private theorem link_newUser (h : db.Sound) (now : Instant) (data : NewUser) {released : UserRow → UserRow}
    (hid : ∀ r, (released r).id = r.id) (namespaces : Table NamespaceRow) (home : NamespaceId) :
    linkNamespace ⟨db.users.nextKey⟩ home
        { db with
          users := ⟨db.users.rows.map released ++ [data.toRow now db.users.nextKey], db.users.nextKey⟩
          namespaces := namespaces } =
      .ok ((), { db with
        users :=
          ⟨db.users.rows.map released ++
            [{ data.toRow now db.users.nextKey with namespaceId := some home.number }],
            db.users.nextKey⟩
        namespaces := namespaces }) := by
  have ready : Database.Ready { db with
      users := ⟨db.users.rows.map released ++ [data.toRow now db.users.nextKey], db.users.nextKey⟩
      namespaces := namespaces } := h.ready
  have old : ∀ r ∈ db.users.rows.map released, decide (r.id = db.users.nextKey) = false := by
    intro s hs
    obtain ⟨r, hr, rfl⟩ := List.mem_map.mp hs
    rw [hid r]
    exact decide_eq_false (h.users_ordered.key_ne_nextKey hr)
  have new : decide ((data.toRow now db.users.nextKey).id = db.users.nextKey) = true := decide_eq_true rfl
  rw [linkNamespace, updateUser_eq ready, if_pos]
  · rw [Table.modify_one _ rfl old (List.forall_mem_nil _) new]
  · rw [Table.any_eq_true]
    exact ⟨data.toRow now db.users.nextKey, by simp, new⟩

/-- The store before the new user is linked to its namespace. -/
private abbrev withHome (db : Database) (now : Instant) (data : NewUser) (path : String) : Database :=
  { db with
    users :=
      ⟨db.users.rows.map (released (db.homeAt? path)) ++ [data.toRow now db.users.nextKey],
        db.users.nextKey⟩
    namespaces := (db.withAccount now data path).namespaces }

private theorem not_vacant_of_none (hn : db.homeAt? path = none) :
    db.namespaces.any (db.isVacant path) = false := by
  rw [Table.any_eq_false]
  intro n hm
  have hp := homeAt?_eq_none.mp hn n hm
  simp [isVacant, hp]

/-- A new path gets a new namespace. -/
private theorem insertHome (h : db.Sound) (ha : db.Admits data path) (hn : db.homeAt? path = none) :
    insertNamespace ⟨db.users.nextKey, .user, path⟩ (withUser db now data) =
      .ok (⟨⟨db.homeKey path⟩, db.users.nextKey, .user, path⟩, withHome db now data path) := by
  have ready : (withUser db now data).Ready := h.ready
  have free : db.namespaces.any (fun n => n.path = path || n.ownedBy db.users.nextKey .user) = false := by
    rw [Table.any_eq_false]
    intro n hm
    have hp := homeAt?_eq_none.mp hn n hm
    have ho := ha.unhoused n hm
    simp only [Bool.or_eq_false_iff, decide_eq_false_iff_not]
    exact ⟨hp, by rwa [← Bool.not_eq_true, NamespaceRow.ownedBy_eq_true]⟩
  have key : db.homeKey path = db.namespaces.nextKey := by rw [homeKey, hn]
  have users : db.users.rows.map (released none) = db.users.rows := by
    have same : ∀ r : UserRow, released none r = r := fun r => by simp [released, isReleased]
    rw [List.map_congr_left fun r _ => same r]
    exact List.map_id' _
  rw [insertNamespace_eq ready, if_neg (by rw [free]; decide), withHome, withAccount, hn, key]
  simp only [users]
  rfl

/-- The namespace that a path has changes hands. -/
private theorem takeOverHome (h : db.Sound) (ha : db.Admits data path) {home : NamespaceRow}
    (hs : db.homeAt? path = some home) :
    takeOverNamespace path db.users.nextKey (withUser db now data) =
      .ok (some ⟨⟨db.homeKey path⟩, db.users.nextKey, .user, path⟩, withHome db now data path) := by
  have ready : (withUser db now data).Ready := h.ready
  obtain ⟨hm, hp⟩ := homeAt?_mem hs
  have vacant : ∀ n ∈ db.namespaces.rows, (withUser db now data).isVacant path n = decide (n.path = path) := by
    intro n hn
    rw [isVacant_addUser rfl]
    exact ha.isVacant_eq hn
  have some_vacant : db.namespaces.any ((withUser db now data).isVacant path) = true := by
    rw [Table.any_eq_true]
    exact ⟨home, hm, by rw [vacant home hm]; exact decide_eq_true hp⟩
  have none_owned : ∀ n ∈ db.namespaces.rows, n.ownedBy db.users.nextKey .user = false := by
    intro n hn
    rw [← Bool.not_eq_true, NamespaceRow.ownedBy_eq_true]
    exact ha.unhoused n hn
  have no_other : db.namespaces.any (fun n =>
      n.ownedBy db.users.nextKey .user && !(withUser db now data).isVacant path n) = false := by
    rw [Table.any_eq_false]
    intro n hn
    rw [none_owned n hn]
    rfl
  have taken : db.namespaces.modify ((withUser db now data).isVacant path)
        (fun n => { n with ownerId := db.users.nextKey }) =
      db.namespaces.modify (fun n => n.path = path) fun n => { n with ownerId := db.users.nextKey } :=
    Table.modify_congr _ vacant
  -- of the namespaces after the change only the one of the path is filed under the new user
  have found : (db.namespaces.modify (fun n => n.path = path)
      fun n => { n with ownerId := db.users.nextKey }).find?
        (fun n => n.ownedBy db.users.nextKey .user) = some { home with ownerId := db.users.nextKey } := by
    apply Table.find?_eq_some_of_unique
    · exact Table.mem_modify.mpr ⟨home, hm, if_pos (decide_eq_true hp)⟩
    · exact NamespaceRow.ownedBy_eq_true.mpr ⟨rfl, (ha.vacant home hm hp).1⟩
    · intro m hm' howned
      obtain ⟨n, hn, rfl⟩ := Table.mem_modify.mp hm'
      by_cases hq : n.path = path
      · have same : n = home := h.paths n hn home hm trivial trivial (hq.trans hp.symm)
        rw [if_pos (decide_eq_true hq), same]
      · rw [if_neg (by simpa using hq), none_owned n hn] at howned
        cases howned
  have users : (db.users.append (data.toRow now)).modify
        (fun r => r.isDeleted && r.namespaceId = some home.id) UserRow.unlinked =
      ⟨db.users.rows.map (released (some home)) ++ [data.toRow now db.users.nextKey],
        db.users.nextKey⟩ := by
    simp only [Table.modify, Table.append, List.map_append, List.map_cons, List.map_nil]
    rfl
  have key : db.homeKey path = home.id := by rw [homeKey, hs]
  rw [takeOverNamespace_eq ready, if_pos some_vacant, if_neg (by rw [no_other]; decide)]
  simp only [taken, found, users, withHome, withAccount, hs, key, hp]

theorem commitRegistration_of_admits (h : db.Sound) (now : Instant) (ha : db.Admits data path) :
    commitRegistration now data path db = .ok (db.account now data path, db.withAccount now data path) := by
  have linked := link_newUser h now data (released_id (db.homeAt? path))
    (db.withAccount now data path).namespaces
    ⟨db.homeKey path⟩
  have inserted := insertUser_of_no_clash h now (no_clash_iff.mpr ha.free)
  cases hs : db.homeAt? path with
  | none =>
      simp only [commitRegistration, h.ready.requireOpen, inserted, ok_bind, NewUser.toUser,
        takeOver_of_not_vacant h (not_vacant_of_none hs), insertHome h ha hs]
      rw [withHome, linked]
      rfl
  | some home =>
      simp only [commitRegistration, h.ready.requireOpen, inserted, ok_bind, NewUser.toUser,
        takeOverHome h ha hs]
      rw [withHome, pure_bind, linked]
      rfl

end Admitted

/-! ## Registrations that are refused -/

/-- A namespace of a user number that is not given yet is not vacant. -/
private theorem not_vacant_of_newOwner (h : db.Sound) {n : NamespaceRow}
    (ho : n.ownerId = db.users.nextKey) : db.isVacant path n = false := by
  rw [← Bool.not_eq_true, isVacant_eq_true]
  rintro ⟨_, _, r, hr, hid, _⟩
  exact h.users_ordered.key_ne_nextKey hr (hid.trans ho)

private theorem takeOver_of_owned (h : db.Sound) (hv : db.namespaces.any (db.isVacant path) = true)
    (ho : ∃ n ∈ db.namespaces.rows,
      n.ownerId = db.users.nextKey ∧ n.ownerType = OwnerKind.user.code) :
    takeOverNamespace path db.users.nextKey (withUser db now data) =
      .error (.ownerTaken db.users.nextKey) := by
  have ready : (withUser db now data).Ready := h.ready
  obtain ⟨n, hn, howned⟩ := ho
  have other : db.namespaces.any (fun n =>
      n.ownedBy db.users.nextKey .user && !db.isVacant path n) = true := by
    rw [Table.any_eq_true]
    refine ⟨n, hn, ?_⟩
    rw [NamespaceRow.ownedBy_eq_true.mpr howned, not_vacant_of_newOwner h howned.1]
    rfl
  rw [takeOverNamespace_eq ready, isVacant_withUser, if_pos hv, if_pos other]

/-- A vacant namespace is the only one of its path. -/
private theorem vacant_of_any (h : db.Sound) (hv : db.namespaces.any (db.isVacant path) = true) :
    ∀ n ∈ db.namespaces.rows, n.path = path → n.ownerType = OwnerKind.user.code ∧
      ∃ r ∈ db.users.rows, r.id = n.ownerId ∧ r.isDeleted = true := by
  obtain ⟨home, hm, hvac⟩ := Table.any_eq_true.mp hv
  obtain ⟨hp, vacant⟩ := isVacant_eq_true.mp hvac
  intro n hn hq
  rw [h.paths n hn home hm trivial trivial (hq.trans hp.symm)]
  exact vacant

theorem commitRegistration_of_not_admits (h : db.Sound) (now : Instant)
    (ha : ¬ db.Admits data path) :
    ∃ e, commitRegistration now data path db = .error e ∧ e.isConflict = true := by
  have ready : (withUser db now data).Ready := h.ready
  cases hc : db.users.any (UserRow.clashes data) with
  | true =>
      simp only [commitRegistration, h.ready.requireOpen, insertUser_eq h.ready, hc, ok_bind]
      exact ⟨_, rfl, rfl⟩
  | false =>
      have free := no_clash_iff.mp hc
      have inserted := insertUser_of_no_clash h now hc
      cases hv : db.namespaces.any (db.isVacant path) with
      | true =>
          have owned : ∃ n ∈ db.namespaces.rows,
              n.ownerId = db.users.nextKey ∧ n.ownerType = OwnerKind.user.code := by
            apply Classical.byContradiction
            intro hn
            exact ha ⟨free, vacant_of_any h hv, fun n hm ho => hn ⟨n, hm, ho⟩⟩
          simp only [commitRegistration, h.ready.requireOpen, inserted, ok_bind, NewUser.toUser,
            takeOver_of_owned h hv owned]
          exact ⟨_, rfl, rfl⟩
      | false =>
          -- nothing was vacant, so the path or the owner stands in the way of a new namespace
          have taken : db.namespaces.any (fun n =>
              n.path = path || n.ownedBy db.users.nextKey .user) = true := by
            apply Classical.byContradiction
            intro hn
            rw [Bool.not_eq_true, Table.any_eq_false] at hn
            have none_here : ∀ n ∈ db.namespaces.rows,
                n.path ≠ path ∧ n.ownedBy db.users.nextKey .user = false := by
              intro n hm
              simpa using hn n hm
            refine ha ⟨free, fun n hm hp => absurd hp (none_here n hm).1, fun n hm ho => ?_⟩
            have hno := (none_here n hm).2
            rw [NamespaceRow.ownedBy_eq_true.mpr ho] at hno
            cases hno
          simp only [commitRegistration, h.ready.requireOpen, inserted, ok_bind, NewUser.toUser,
            takeOver_of_not_vacant h hv, insertNamespace_eq ready, taken, if_true]
          exact ⟨_, rfl, rfl⟩

/-! ## The rows of the store afterwards -/

theorem mem_withAccount_users {r' : UserRow} :
    r' ∈ (db.withAccount now data path).users.rows ↔
      (∃ r ∈ db.users.rows, released (db.homeAt? path) r = r') ∨ r' = db.accountRow now data path := by
  simp [withAccount]

/-- Old or new, the namespace of the path is the only one that was not there as it is. -/
theorem mem_withAccount_namespaces (h : db.Sound) (ha : db.Admits data path) {n : NamespaceRow} :
    n ∈ (db.withAccount now data path).namespaces.rows ↔
      (n ∈ db.namespaces.rows ∧ n.path ≠ path) ∨
        n = ⟨db.homeKey path, db.users.nextKey, OwnerKind.user.code, path⟩ := by
  cases hs : db.homeAt? path with
  | none =>
      have hp := homeAt?_eq_none.mp hs
      simp only [withAccount, homeKey, hs, Table.append_rows, List.mem_append, List.mem_singleton]
      constructor
      · rintro (hn | hn)
        · exact Or.inl ⟨hn, hp n hn⟩
        · exact Or.inr hn
      · rintro (⟨hn, _⟩ | hn)
        · exact Or.inl hn
        · exact Or.inr hn
  | some home =>
      obtain ⟨hm, hp⟩ := homeAt?_mem hs
      have moved : { home with ownerId := db.users.nextKey } =
          (⟨home.id, db.users.nextKey, OwnerKind.user.code, path⟩ : NamespaceRow) := by
        rw [← (ha.vacant home hm hp).1, ← hp]
      simp only [withAccount, homeKey, hs, Table.mem_modify]
      constructor
      · rintro ⟨m, hm', rfl⟩
        by_cases hq : m.path = path
        · have same : m = home := h.paths m hm' home hm trivial trivial (hq.trans hp.symm)
          rw [if_pos (decide_eq_true hq), same, moved]
          exact Or.inr rfl
        · rw [if_neg (by simpa using hq)]
          exact Or.inl ⟨hm', hq⟩
      · rintro (⟨hn, hq⟩ | rfl)
        · exact ⟨n, hn, if_neg (by simpa using hq)⟩
        · exact ⟨home, hm, by rw [if_pos (decide_eq_true hp), moved]⟩

/-! ## Soundness -/

theorem Sound.moveNamespace (h : db.Sound) (path : String) (owner : Int)
    (unhoused : ∀ n ∈ db.namespaces.rows,
      ¬ (n.ownerId = owner ∧ n.ownerType = OwnerKind.user.code))
    (kind : ∀ n ∈ db.namespaces.rows, n.path = path → n.ownerType = OwnerKind.user.code) :
    Sound { db with
      namespaces := db.namespaces.modify (fun n => n.path = path) fun n => { n with ownerId := owner } } where
  ready := h.ready
  users_ordered := h.users_ordered
  sessions_ordered := h.sessions_ordered
  namespaces_ordered := h.namespaces_ordered.modify _ fun _ => rfl
  usernames := h.usernames
  emails := h.emails
  tokens := h.tokens
  paths := h.paths.modify _ (fun _ hr => hr) fun _ => rfl
  owners := by
    -- the column itself changes, so the rows are compared by which of them have moved
    intro m' hm' n' hn' _ _ he
    obtain ⟨m, hm, rfl⟩ := Table.mem_modify.mp hm'
    obtain ⟨n, hn, rfl⟩ := Table.mem_modify.mp hn'
    by_cases hp : m.path = path <;> by_cases hq : n.path = path
    · rw [h.paths m hm n hn trivial trivial (hp.trans hq.symm)]
    · rw [if_pos (decide_eq_true hp), if_neg (by simpa using hq)] at he
      obtain ⟨ho, ht⟩ := Prod.mk.inj he
      exact absurd ⟨ho.symm, ht.symm.trans (kind m hm hp)⟩ (unhoused n hn)
    · rw [if_neg (by simpa using hp), if_pos (decide_eq_true hq)] at he
      obtain ⟨ho, ht⟩ := Prod.mk.inj he
      exact absurd ⟨ho, ht.trans (kind n hn hq)⟩ (unhoused m hm)
    · rw [if_neg (by simpa using hp), if_neg (by simpa using hq)] at he ⊢
      exact h.owners m hm n hn trivial trivial he
  session_owner := h.session_owner

/-- The users afterwards come from releasing some and adding one. -/
private theorem withAccount_users (h : db.Sound) : (db.withAccount now data path).users =
    (db.users.modify (isReleased (db.homeAt? path)) UserRow.unlinked).append
      fun _ => db.accountRow now data path := by
  have key := (h.users_ordered.modify (isReleased (db.homeAt? path)) UserRow.harmless_unlinked.id_eq).nextKey_eq
  rw [Table.append, key, Table.modify_lastKey, ← h.users_ordered.nextKey_eq]
  rfl

theorem Sound.withAccount (h : db.Sound) (ha : db.Admits data path) :
    (db.withAccount now data path).Sound := by
  have housed : Sound { db with namespaces := (db.withAccount now data path).namespaces } := by
    cases hs : db.homeAt? path with
    | none =>
        simp only [Database.withAccount, hs]
        exact h.addNamespace ⟨db.users.nextKey, .user, path⟩ (homeAt?_eq_none.mp hs) ha.unhoused
    | some home =>
        simp only [Database.withAccount, hs]
        exact h.moveNamespace path db.users.nextKey ha.unhoused fun n hn hp => (ha.vacant n hn hp).1
  have released := housed.modifyUsers (isReleased (db.homeAt? path)) UserRow.harmless_unlinked
  have free : ∀ s ∈ (db.users.modify (isReleased (db.homeAt? path)) UserRow.unlinked).rows,
      s.isDeleted = false → s.username ≠ data.username ∧ s.email ≠ data.email := by
    intro s hs hd
    obtain ⟨r, hr, rfl⟩ := Table.mem_modify.mp hs
    change (Database.released (db.homeAt? path) r).isDeleted = false at hd
    change (Database.released (db.homeAt? path) r).username ≠ _ ∧
      (Database.released (db.homeAt? path) r).email ≠ _
    rw [released_isDeleted] at hd
    rw [released_username, released_email]
    exact ha.free r hr hd
  have key : (db.users.modify (isReleased (db.homeAt? path)) UserRow.unlinked).nextKey =
      db.users.nextKey := by
    rw [released.users_ordered.nextKey_eq, h.users_ordered.nextKey_eq]
    rfl
  have added := released.addUser (fun _ => db.accountRow now data path) key.symm
    (fun s hs hd => (free s hs hd).1) (fun s hs hd => (free s hs hd).2)
  have whole : db.withAccount now data path =
      { db with
        namespaces := (db.withAccount now data path).namespaces
        users := (db.users.modify (isReleased (db.homeAt? path)) UserRow.unlinked).append
          fun _ => db.accountRow now data path } := by
    rw [← withAccount_users h]
    rfl
  rw [whole]
  exact added

end Database

end Gatehouse.Store
