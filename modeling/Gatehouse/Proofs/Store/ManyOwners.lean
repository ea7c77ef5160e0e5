import Gatehouse.Proofs.Store.Pages

/-! # Many owners at once

The namespaces of many owners are looked up by one query, and the answer, which stands in no order that could be
relied on, is dealt out to the users by their numbers. It is what asking for one owner after another would give,
because an owner of a kind has one namespace at most and no two users have the same number: so nobody is dealt the
namespace of another, and nobody takes away the one that another should have. Asking one after another always gets
an answer; a query for more owners than the engine binds values to a statement gets none.
-/

namespace Gatehouse.Store

/-! ## Dealing out -/

/--
Users with different numbers are dealt what is theirs. It is told from what is in the list of namespaces, so the
order of the list does not matter.
-/
theorem attachNamespaces_eq_map {users : List User} {namespaces : List Namespace} {home : User → Option Namespace}
    (distinct : (ownerIds users).Nodup)
    (theirs : ∀ u ∈ users, ∀ n, home u = some n ↔ n ∈ namespaces ∧ n.ownerId = u.id.number) :
    attachNamespaces namespaces users = users.map fun u => ⟨u, home u⟩ := by
  rw [attachNamespaces_eq_dealTo, Filing.dealTo_eq_map _ distinct]
  apply List.map_congr_left
  intro u hu
  congr 1
  cases found : filed namespaces u.id.number with
  | some n =>
      have last := filed_eq_some_iff.mp found
      exact ((theirs u hu n).mpr ⟨last.mem, last.1⟩).symm
  | none =>
      symm
      rw [Option.eq_none_iff_forall_ne_some]
      intro n hers
      obtain ⟨among, owner⟩ := (theirs u hu n).mp hers
      exact filed_eq_none_iff.mp found n among owner

namespace Database

variable {db : Database} {binds : Nat} {owners : List Int}

/-! ## One owner and many -/

/-- The namespace of an owner, if it has one. -/
def homeOf (db : Database) (owner : Int) (kind : OwnerKind) : Option Namespace :=
  (db.namespaces.find? fun r => r.ownedBy owner kind).map (·.under kind)

theorem namespaceByOwner_eq (h : db.Ready) (owner : Int) (kind : OwnerKind) :
    namespaceByOwner owner kind db = .ok (db.homeOf owner kind) := by
  rw [namespaceByOwner, h.requireOpen, ok_bind, namespaceOwnedBy_eq h, homeOf]
  congr 1
  apply Option.map_congr
  intro r found
  have owned := List.find?_some found
  rw [NamespaceRow.under, (NamespaceRow.ownedBy_eq_true.mp owned).1]

theorem Sound.homeOf_eq_some_iff (h : db.Sound) {owner : Int} {kind : OwnerKind} {n : Namespace} :
    db.homeOf owner kind = some n ↔ ∃ r ∈ db.namespaces.rows, r.ownedBy owner kind = true ∧ r.under kind = n := by
  rw [homeOf, Option.map_eq_some_iff]
  constructor
  · rintro ⟨r, found, same⟩
    have owned := List.find?_some found
    exact ⟨r, List.mem_of_find?_eq_some found, owned, same⟩
  · rintro ⟨r, hr, owned, same⟩
    refine ⟨r, Table.find?_eq_some_of_unique hr owned fun s hs owned' => ?_, same⟩
    obtain ⟨owner_eq, code⟩ := NamespaceRow.ownedBy_eq_true.mp owned
    obtain ⟨owner_eq', code'⟩ := NamespaceRow.ownedBy_eq_true.mp owned'
    exact h.owners s hs r hr trivial trivial (Prod.ext (owner_eq'.trans owner_eq.symm) (code'.trans code.symm))

/-- What is found under an owner of a kind belongs to that owner of that kind. -/
theorem owner_of_homeOf {owner : Int} {kind : OwnerKind} {n : Namespace} (found : db.homeOf owner kind = some n) :
    n.ownerId = owner ∧ n.ownerKind = kind := by
  obtain ⟨r, first, rfl⟩ := Option.map_eq_some_iff.mp found
  have owned := List.find?_some first
  exact ⟨(NamespaceRow.ownedBy_eq_true.mp owned).1, rfl⟩

theorem Sound.mem_namespacesByOwners (h : db.Sound) (kind : OwnerKind) (named : CanName binds owners.length) :
    ∃ namespaces, namespacesByOwners binds kind owners db = .ok namespaces ∧ namespaces.Nodup ∧
      ∀ n, n ∈ namespaces ↔ ∃ owner ∈ owners, db.homeOf owner kind = some n := by
  refine ⟨_, namespacesByOwners_eq h.ready kind named, ?_, ?_⟩
  · rw [List.Nodup, List.pairwise_map]
    apply (h.namespaces_ordered.rising.sublist List.filter_sublist).imp
    intro r s less same
    exact Int.ne_of_lt less (congrArg (·.id.number) same)
  · intro n
    simp only [List.mem_map, mem_ownedRows, h.homeOf_eq_some_iff]
    constructor
    · rintro ⟨r, ⟨hr, owner, among, owned⟩, rfl⟩
      exact ⟨owner, among, r, hr, owned, rfl⟩
    · rintro ⟨owner, among, r, hr, owned, rfl⟩
      exact ⟨r, ⟨hr, owner, among, owned⟩, rfl⟩

/-! ## The administrators -/

theorem Sound.adminRows_eq_mergeSort (h : db.Sound) (flags : ∀ r ∈ db.users.rows, r.isAdmin = 0 ∨ r.isAdmin = 1) :
    db.adminRows =
      (db.users.rows.filter fun r => r.isAdmin ≠ 0 && !r.isDeleted).mergeSort fun r s => r.id ≤ s.id := by
  have flagged : (db.users.rows.filter fun r => r.isAdmin ≠ 0 && !r.isDeleted) = db.adminRows := by
    rw [← adminRows_eq]
    apply List.filter_congr
    intro r hr
    rcases flags r hr with flag | flag <;> simp [flag]
  rw [flagged]
  exact (UserRow.mergeSort_of_rising (h.listed_rising.sublist db.adminRows_sublist)).symm

/-- However the namespaces of some users stand, each of the users is dealt its own. -/
theorem Sound.attachNamespaces_eq (h : db.Sound) {rows : List UserRow} (part : rows.Sublist db.listed)
    {users : List User} (read : rows.mapM UserRow.toUser = .ok users) {namespaces : List Namespace}
    (found : ∀ n, n ∈ namespaces ↔ ∃ owner ∈ ownerIds users, db.homeOf owner .user = some n) :
    attachNamespaces namespaces users = users.map fun u => ⟨u, db.homeOf u.id.number .user⟩ := by
  apply attachNamespaces_eq_map
  · rw [ownerIds, UserRow.numbers_of_mapM read, List.Nodup, List.pairwise_map]
    exact (h.listed_rising.sublist part).imp Int.ne_of_lt
  · intro u hu n
    rw [found n]
    constructor
    · intro home
      exact ⟨⟨_, List.mem_map_of_mem hu, home⟩, (owner_of_homeOf home).1⟩
    · rintro ⟨⟨owner, _, home⟩, owner_eq⟩
      rw [← owner_eq, (owner_of_homeOf home).1]
      exact home

theorem canName_of_namespacesByOwners (h : db.Ready) {kind : OwnerKind} {namespaces : List Namespace}
    (found : namespacesByOwners binds kind owners db = .ok namespaces) : CanName binds owners.length := by
  by_contra tooMany
  rw [namespacesByOwners_of_not_canName h kind tooMany] at found
  cases found

theorem canName_of_admins (h : db.Ready) {accounts : List UserWithNamespace} (found : admins binds db = .ok accounts) :
    CanName binds db.adminRows.length := by
  by_contra tooMany
  rw [admins_of_not_canName h (read_of_admins found) tooMany] at found
  cases found

/-- The list of administrators is made of what is dealt out, in whatever order it has been found. -/
theorem Sound.admins_eq_attach (h : db.Sound) {users : List User} (read : db.adminRows.mapM UserRow.toUser = .ok users)
    {namespaces namespaces' : List Namespace}
    (found : namespacesByOwners binds .user (ownerIds users) db = .ok namespaces)
    (reordered : namespaces'.Perm namespaces) : admins binds db = .ok (attachNamespaces namespaces' users) := by
  obtain ⟨_, found', _, same⟩ := h.mem_namespacesByOwners .user (canName_of_namespacesByOwners h.ready found)
  cases found.symm.trans found'
  have same' : ∀ n, n ∈ namespaces' ↔ ∃ owner ∈ ownerIds users, db.homeOf owner .user = some n := fun n =>
    reordered.mem_iff.trans (same n)
  rw [h.attachNamespaces_eq db.adminRows_sublist read same', ← h.attachNamespaces_eq db.adminRows_sublist read same]
  rw [admins_eq h.ready, read, ok_bind, found]
  rfl

/-- The administrators are those who would be found by asking for the namespace of one after another. -/
theorem Sound.admins_eq_mapM (h : db.Sound) (named : CanName binds db.adminRows.length) :
    admins binds db = db.adminRows.mapM fun r => do
      let user ← r.toUser
      let home ← namespaceByOwner user.id.number .user db
      return ⟨user, home⟩ := by
  have pointwise : (db.adminRows.mapM fun r => do
      let user ← r.toUser
      let home ← namespaceByOwner user.id.number .user db
      return (⟨user, home⟩ : UserWithNamespace)) =
      (db.adminRows.mapM UserRow.toUser).map (List.map fun u => ⟨u, db.homeOf u.id.number .user⟩) := by
    rw [← mapM_map]
    congr 1
    funext r
    cases r.toUser with
    | error e => rfl
    | ok user =>
        rw [ok_bind, namespaceByOwner_eq h.ready]
        rfl
  rw [pointwise]
  cases read : db.adminRows.mapM UserRow.toUser with
  | error e =>
      rw [admins_eq h.ready, read]
      rfl
  | ok users =>
      rw [← length_ownerIds read] at named
      obtain ⟨namespaces, found, _, same⟩ := h.mem_namespacesByOwners .user named
      rw [h.admins_eq_attach read found (List.Perm.refl namespaces),
        h.attachNamespaces_eq db.adminRows_sublist read same]
      rfl

/--
After any run of operations, asking for the namespaces of many owners gives those that asking for each of the owners
gives, each of them once, however often an owner is named; and without owners it gives none. The list of
administrators is that of the undeleted ones sorted by their numbers, each with the namespace that asking for it as
a user gives. It does not depend on the order in which the namespaces of all of them have been found, and holds no
namespace of an organisation and none of anybody else.
All this is kept as long as one statement can name the owners; for more the engine refuses both queries. On clocks
that show four digits of the year these are all the refusals of the list.
-/
theorem bulk_eq_pointwise (names : TableNames) (operations : List Operation) (binds : Nat) :
    let db := (empty names).run operations
    let administrators :=
      (db.users.rows.filter fun r => r.isAdmin ≠ 0 && !r.isDeleted).mergeSort fun r s => r.id ≤ s.id
    (∀ kind owners, CanName binds owners.length →
      ∃ namespaces, namespacesByOwners binds kind owners db = .ok namespaces ∧ namespaces.Nodup ∧
        ∀ n, n ∈ namespaces ↔ ∃ owner ∈ owners, namespaceByOwner owner kind db = .ok (some n)) ∧
    (∀ kind owners, ¬ CanName binds owners.length → namespacesByOwners binds kind owners db = .error .tooManyValues) ∧
    (∀ kind, namespacesByOwners binds kind [] db = .ok []) ∧
    (CanName binds administrators.length → admins binds db = administrators.mapM fun r => do
      let user ← r.toUser
      let home ← namespaceByOwner user.id.number .user db
      return ⟨user, home⟩) ∧
    (∀ users namespaces namespaces', administrators.mapM UserRow.toUser = .ok users →
      namespacesByOwners binds .user (ownerIds users) db = .ok namespaces → namespaces'.Perm namespaces →
      admins binds db = .ok (attachNamespaces namespaces' users)) ∧
    (∀ accounts, admins binds db = .ok accounts → ∀ account ∈ accounts, ∀ n, account.home = some n →
      n.ownerId = account.user.id.number ∧ n.ownerKind = .user) ∧
    ((∀ o ∈ operations, o.Dated) →
      (CanName binds administrators.length → ∃ accounts, admins binds db = .ok accounts) ∧
      (¬ CanName binds administrators.length → admins binds db = .error .tooManyValues)) := by
  intro db administrators
  have reached : db.Reachable := (Reachable.empty names).run operations
  have sound := reached.sound
  have sorted : administrators = db.adminRows := (sound.adminRows_eq_mergeSort reached.isAdmin_cases).symm
  rw [sorted]
  refine ⟨?_, ?_, fun kind => rfl, sound.admins_eq_mapM, ?_, ?_, ?_⟩
  · intro kind owners named
    simp only [namespaceByOwner_eq sound.ready, Except.ok.injEq]
    exact sound.mem_namespacesByOwners kind named
  · intro kind owners tooMany
    exact namespacesByOwners_of_not_canName sound.ready kind tooMany
  · intro users namespaces namespaces' read found reordered
    exact sound.admins_eq_attach read found reordered
  · intro accounts found account among n home
    rw [sound.admins_eq_mapM (canName_of_admins sound.ready found)] at found
    obtain ⟨r, _, dealt⟩ := exists_of_mem_mapM found among
    obtain ⟨user, _, dealt⟩ := exists_of_bind_eq_ok dealt
    rw [namespaceByOwner_eq sound.ready, ok_bind] at dealt
    cases dealt
    exact owner_of_homeOf home
  · intro dated
    have legible : db.Legible := (legible_empty names).run dated
    obtain ⟨users, read⟩ := legible.mapM_toUser db.adminRows_sublist
    exact ⟨legible.admins sound.ready, admins_of_not_canName sound.ready read⟩

/-- Three administrators, of whom one is deleted, and one has an organisation of the same number. -/
def board : List Operation :=
  [.createUser .epoch { ada with email := "ruth@example.org", username := "ruth", isAdmin := true },
    .createUser .epoch { ada with email := "otto@example.org", username := "otto", isAdmin := true },
    .createUser .epoch { ada with email := "eve@example.org", username := "eve", isAdmin := true },
    .createNamespace ⟨3, .user, "eve"⟩,
    .createNamespace ⟨2, .organisation, "guild"⟩,
    .createNamespace ⟨1, .organisation, "works"⟩,
    .createNamespace ⟨1, .user, "ruth"⟩,
    .softDelete .epoch ⟨3⟩,
    .commitRegistration .epoch ada "ada"]

/--
Ruth, Eve and Ada have one namespace each, even if asked for twice. Of the administrators Ruth comes with her own,
Otto with none, and Eve does not come at all. Where a statement binds two values, the kind and one owner, none of
them comes.
-/
theorem bulk_eq_pointwise_board :
    let db := (empty {}).run board
    (∃ namespaces, namespacesByOwners usualBinds .user [4, 1, 2, 3, 1, 4] db = .ok namespaces ∧ namespaces.Nodup ∧
      namespaces.map (·.path) = ["eve", "ruth", "ada"] ∧
      ∀ n ∈ namespaces, ∃ owner ∈ [4, 1, 2, 3, 1, 4], namespaceByOwner owner .user db = .ok (some n)) ∧
    (∃ accounts, admins usualBinds db = .ok accounts ∧
      accounts.map (fun a => (a.user.username, a.path)) = [("ruth", some "ruth"), ("otto", none)] ∧
      ∀ account ∈ accounts, ∀ n, account.home = some n → n.ownerId = account.user.id.number ∧ n.ownerKind = .user) ∧
    admins 2 db = .error .tooManyValues := by
  intro db
  have dated : ∀ o ∈ board, o.Dated := by decide +kernel
  have two : ((db.users.rows.filter fun r => r.isAdmin ≠ 0 && !r.isDeleted).mergeSort
      fun r s => r.id ≤ s.id).length = 2 := by
    rw [List.length_mergeSort]
    decide +kernel
  obtain ⟨many, _, _, _, _, own, answered⟩ := bulk_eq_pointwise {} board usualBinds
  obtain ⟨_, _, _, _, _, _, outcome⟩ := bulk_eq_pointwise {} board 2
  refine ⟨?_, ?_, ?_⟩
  · obtain ⟨namespaces, found, once, same⟩ := many .user [4, 1, 2, 3, 1, 4] (by decide)
    have paths : (namespacesByOwners usualBinds .user [4, 1, 2, 3, 1, 4] db).toOption.map (List.map (·.path)) =
        some ["eve", "ruth", "ada"] := by
      decide +kernel
    rw [found] at paths
    exact ⟨namespaces, found, once, Option.some.inj paths, fun n => (same n).mp⟩
  · obtain ⟨accounts, found⟩ := (answered dated).1 (by rw [two]; decide)
    have shown : (admins usualBinds db).toOption.map (List.map fun a => (a.user.username, a.path)) =
        some [("ruth", some "ruth"), ("otto", none)] := by
      decide +kernel
    rw [found] at shown
    exact ⟨accounts, found, Option.some.inj shown, own accounts found⟩
  · exact (outcome dated).2 (by rw [two]; decide)

end Database

end Gatehouse.Store
