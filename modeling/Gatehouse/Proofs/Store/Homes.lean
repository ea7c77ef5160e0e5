import Gatehouse.Proofs.Store.Accounts

/-! # Users and their namespaces

A user points to a namespace and a namespace to a user, and no constraint ties the two together. They
agree all the same where every namespace came about with the registration of its owner, under the name
of that owner: such a store is housed. In a housed store a name is in the way of a registration only as
long as an undeleted user has it.
-/

namespace Gatehouse.Store

/-- Two rows agree in the number, the names and the addresses, which no request ever changes. -/
structure UserRow.Same (r r' : UserRow) : Prop where
  id : r'.id = r.id
  username : r'.username = r.username
  email : r'.email = r.email
  name : r'.name = r.name
  registerIp : r'.registerIp = r.registerIp

/-- A change of users' rows that leaves all that and their namespaces alone, and undeletes nobody. -/
structure UserRow.Settled (f : UserRow → UserRow) : Prop where
  same : ∀ r : UserRow, r.Same (f r)
  namespaceId_eq : ∀ r, (f r).namespaceId = r.namespaceId
  undeleted : ∀ r, (f r).isDeleted = false → r.isDeleted = false

namespace UserRow

open Gatehouse.Time

theorem Same.refl (r : UserRow) : r.Same r :=
  ⟨rfl, rfl, rfl, rfl, rfl⟩

theorem Same.trans {r r' r'' : UserRow} (h : r.Same r') (h' : r'.Same r'') : r.Same r'' :=
  ⟨h'.id.trans h.id, h'.username.trans h.username, h'.email.trans h.email, h'.name.trans h.name,
    h'.registerIp.trans h.registerIp⟩

theorem Same.ite {f : UserRow → UserRow} (hf : ∀ r : UserRow, r.Same (f r)) (p : UserRow → Bool) (r : UserRow) :
    r.Same (if p r then f r else r) := by
  split
  · exact hf r
  · exact Same.refl r

theorem Settled.harmless {f : UserRow → UserRow} (hf : Settled f) : Harmless f :=
  ⟨fun r => (hf.same r).id, fun r => (hf.same r).username, fun r => (hf.same r).email, hf.undeleted⟩

theorem settled_loggedIn (now : Instant) (clientIp : String) : Settled (loggedIn now clientIp) :=
  ⟨fun _ => ⟨rfl, rfl, rfl, rfl, rfl⟩, fun _ => rfl, fun _ h => h⟩

theorem settled_verified (now : Instant) : Settled (verified now) :=
  ⟨fun _ => ⟨rfl, rfl, rfl, rfl, rfl⟩, fun _ => rfl, fun _ h => h⟩

theorem settled_deleted (now : Instant) : Settled (deleted now) :=
  ⟨fun _ => ⟨rfl, rfl, rfl, rfl, rfl⟩, fun _ => rfl, fun _ h => by cases h⟩

end UserRow

/-- Users and namespaces point to each other, and a path is the name of its owner. -/
structure Database.Housed (db : Database) : Prop where
  sound : db.Sound
  /-- An undeleted user is linked to a namespace. -/
  linked : ∀ u ∈ db.users.rows, u.isDeleted = false → u.namespaceId ≠ none
  /-- A link leads to a namespace of the user. -/
  link : ∀ u ∈ db.users.rows, ∀ k, u.namespaceId = some k →
    ∃ n ∈ db.namespaces.rows, n.id = k ∧ n.ownerId = u.id
  /-- A namespace has a user for its owner, and the owner's name for its path. -/
  owner : ∀ n ∈ db.namespaces.rows, n.ownerType = OwnerKind.user.code ∧
    ∃ u ∈ db.users.rows, u.id = n.ownerId ∧ u.username = n.path
  /-- Of the users of a name the owner is the newest. -/
  newest : ∀ n ∈ db.namespaces.rows, ∀ u ∈ db.users.rows, u.username = n.path → u.id ≤ n.ownerId
  /-- A name that a user has or had is a path. -/
  path : ∀ u ∈ db.users.rows, ∃ n ∈ db.namespaces.rows, n.path = u.username

namespace Database

variable {db : Database} {now : Time.Instant} {data : NewUser}

theorem housed_empty (names : TableNames) : (empty names).Housed where
  sound := sound_empty names
  linked := by
    intro u hu
    cases hu
  link := by
    intro u hu
    cases hu
  owner := by
    intro n hn
    cases hn
  newest := by
    intro n hn
    cases hn
  path := by
    intro u hu
    cases hu

/-- The namespace of a user who is not deleted. -/
theorem Housed.home (h : db.Housed) {u : UserRow} (hu : u ∈ db.users.rows) (hd : u.isDeleted = false) :
    ∃ n ∈ db.namespaces.rows, u.namespaceId = some n.id ∧ n.ownerId = u.id ∧
      n.ownerType = OwnerKind.user.code ∧ n.path = u.username := by
  obtain ⟨k, hk⟩ := Option.ne_none_iff_exists'.mp (h.linked u hu hd)
  obtain ⟨n, hn, hid, hown⟩ := h.link u hu k hk
  obtain ⟨kind, v, hv, hvid, hname⟩ := h.owner n hn
  have same : v = u := h.sound.users_ordered.eq_of_key_eq hv hu (hvid.trans hown)
  exact ⟨n, hn, by rw [hk, hid], hown, kind, by rw [← hname, same]⟩

/-! ## Registrations -/

/-- In a housed store neither a path nor the number of the new user is ever in the way. -/
theorem Housed.admits_iff (h : db.Housed) :
    db.Admits data data.username ↔ db.IsFree data.username data.email := by
  constructor
  · intro ha
    exact ha.free
  · intro free
    refine ⟨free, ?_, ?_⟩
    · intro n hn hp
      obtain ⟨kind, u, hu, hid, hname⟩ := h.owner n hn
      refine ⟨kind, u, hu, hid, ?_⟩
      -- the owner has the name, so it is deleted
      cases hd : u.isDeleted with
      | true => rfl
      | false => exact absurd (hname.trans hp) (free u hu hd).1
    · rintro n hn ⟨hid, _⟩
      obtain ⟨_, u, hu, hid', _⟩ := h.owner n hn
      exact h.sound.users_ordered.key_ne_nextKey hu (hid'.trans hid)

/-- A user that keeps its link after a registration is not one of the path. -/
private theorem link_kept (h : db.Housed) (ha : db.Admits data data.username) {u : UserRow}
    (hu : u ∈ db.users.rows) {k : Int}
    (hk : (released (db.homeAt? data.username) u).namespaceId = some k) :
    ∃ n ∈ db.namespaces.rows, n.id = k ∧ n.ownerId = u.id ∧ n.path ≠ data.username := by
  have kept : isReleased (db.homeAt? data.username) u = false := by
    cases hr : isReleased (db.homeAt? data.username) u with
    | false => rfl
    | true =>
        rw [released, if_pos hr] at hk
        cases hk
  rw [released, if_neg (by rw [kept]; decide)] at hk
  obtain ⟨n, hn, hid, howner⟩ := h.link u hu k hk
  refine ⟨n, hn, hid, howner, ?_⟩
  -- otherwise its owner, this user, is deleted and linked to it, and so released
  intro hp
  obtain ⟨_, v, hv, hvid, hvd⟩ := ha.vacant n hn hp
  have same : v = u := h.sound.users_ordered.eq_of_key_eq hv hu (hvid.trans howner)
  rw [h.sound.homeAt?_eq_some hn hp] at kept
  simp [isReleased, same ▸ hvd, hk, hid] at kept

private theorem housed_withAccount (h : db.Housed) (ha : db.Admits data data.username) :
    (db.withAccount now data data.username).Housed where
  sound := h.sound.withAccount ha
  linked := by
    intro u' hu' hd
    rcases mem_withAccount_users.mp hu' with ⟨u, hu, rfl⟩ | rfl
    · rw [released_isDeleted] at hd
      have kept : isReleased (db.homeAt? data.username) u = false := by simp [isReleased, hd]
      rw [released, if_neg (by rw [kept]; decide)]
      exact h.linked u hu hd
    · exact Option.some_ne_none _
  link := by
    intro u' hu' k hk
    rcases mem_withAccount_users.mp hu' with ⟨u, hu, rfl⟩ | rfl
    · obtain ⟨n, hn, hid, howner, hp⟩ := link_kept h ha hu hk
      refine ⟨n, (mem_withAccount_namespaces h.sound ha).mpr (Or.inl ⟨hn, hp⟩), hid, ?_⟩
      rw [released_id, howner]
    · exact ⟨_, (mem_withAccount_namespaces h.sound ha).mpr (Or.inr rfl), Option.some.inj hk, rfl⟩
  owner := by
    intro n' hn'
    rcases (mem_withAccount_namespaces h.sound ha).mp hn' with ⟨hn, _⟩ | rfl
    · obtain ⟨kind, u, hu, hid, hname⟩ := h.owner n' hn
      refine ⟨kind, _, mem_withAccount_users.mpr (Or.inl ⟨u, hu, rfl⟩), ?_, ?_⟩
      · rw [released_id, hid]
      · rw [released_username, hname]
    · exact ⟨rfl, _, mem_withAccount_users.mpr (Or.inr rfl), rfl, rfl⟩
  newest := by
    intro n' hn' u' hu' hname
    rcases (mem_withAccount_namespaces h.sound ha).mp hn' with ⟨hn, hp⟩ | rfl <;>
      rcases mem_withAccount_users.mp hu' with ⟨u, hu, rfl⟩ | rfl
    · rw [released_id]
      rw [released_username] at hname
      exact h.newest n' hn u hu hname
    · exact absurd hname.symm hp
    · rw [released_id]
      exact Int.le_of_lt (h.sound.users_ordered.key_lt_nextKey hu)
    · exact Int.le_refl _
  path := by
    intro u' hu'
    rcases mem_withAccount_users.mp hu' with ⟨u, hu, rfl⟩ | rfl
    · obtain ⟨n, hn, hp⟩ := h.path u hu
      rw [released_username]
      by_cases hq : u.username = data.username
      · exact ⟨_, (mem_withAccount_namespaces h.sound ha).mpr (Or.inr rfl), hq.symm⟩
      · refine ⟨n, (mem_withAccount_namespaces h.sound ha).mpr (Or.inl ⟨hn, ?_⟩), hp⟩
        rwa [hp]
    · exact ⟨_, (mem_withAccount_namespaces h.sound ha).mpr (Or.inr rfl), rfl⟩

/-- A registration under the user's name keeps a store housed. -/
theorem Housed.withAccount (h : db.Housed) {path : String} (named : data.username = path)
    (ha : db.Admits data path) : (db.withAccount now data path).Housed := by
  subst named
  exact housed_withAccount h ha

/-! ## Other changes -/

/-- A store with the same links and names, and no fewer deleted users, is housed too. -/
theorem Housed.modifyUsers (h : db.Housed) (p : UserRow → Bool) {f : UserRow → UserRow}
    (hf : UserRow.Settled f) : Housed { db with users := db.users.modify p f } where
  sound := h.sound.modifyUsers p hf.harmless
  linked := by
    intro u' hu' hd
    obtain ⟨u, hu, rfl⟩ := Table.mem_modify.mp hu'
    by_cases hp : p u
    · rw [if_pos hp] at hd ⊢
      rw [hf.namespaceId_eq]
      exact h.linked u hu (hf.undeleted u hd)
    · rw [if_neg hp] at hd ⊢
      exact h.linked u hu hd
  link := by
    intro u' hu' k hk
    obtain ⟨u, hu, rfl⟩ := Table.mem_modify.mp hu'
    have same := UserRow.Same.ite hf.same p u
    have linked : u.namespaceId = some k := by
      split at hk
      · rwa [hf.namespaceId_eq] at hk
      · exact hk
    rw [same.id]
    exact h.link u hu k linked
  owner := by
    intro n hn
    obtain ⟨kind, u, hu, hid, hname⟩ := h.owner n hn
    have same := UserRow.Same.ite hf.same p u
    exact ⟨kind, _, Table.mem_modify.mpr ⟨u, hu, rfl⟩, same.id.trans hid, same.username.trans hname⟩
  newest := by
    intro n hn u' hu' hname
    obtain ⟨u, hu, rfl⟩ := Table.mem_modify.mp hu'
    have same := UserRow.Same.ite hf.same p u
    rw [same.id]
    exact h.newest n hn u hu (same.username.symm.trans hname)
  path := by
    intro u' hu'
    obtain ⟨u, hu, rfl⟩ := Table.mem_modify.mp hu'
    rw [(UserRow.Same.ite hf.same p u).username]
    exact h.path u hu

theorem Housed.addSession (h : db.Housed) (data : NewSession)
    (unused : ∀ s ∈ db.sessions.rows, s.token ≠ data.token)
    (owner : ∃ r ∈ db.users.rows, r.id = data.ownerId.number) :
    Housed { db with sessions := db.sessions.append data.toRow } where
  sound := h.sound.addSession data unused owner
  linked := h.linked
  link := h.link
  owner := h.owner
  newest := h.newest
  path := h.path

theorem Housed.withVerified (h : db.Housed) (now : Time.Instant) (id : UserId) :
    (db.withVerified now id).Housed :=
  h.modifyUsers _ (UserRow.settled_verified now)

theorem Housed.withDeleted (h : db.Housed) (now : Time.Instant) (id : UserId) :
    (db.withDeleted now id).Housed :=
  h.modifyUsers _ (UserRow.settled_deleted now)

theorem Housed.withLogin (h : db.Housed) (now : Time.Instant) (id : UserId) (clientIp : String)
    {data : NewSession} (unused : ∀ s ∈ db.sessions.rows, s.token ≠ data.token)
    (owner : ∃ r ∈ db.users.rows, r.id = data.ownerId.number) :
    (db.withLogin now id clientIp data).Housed := by
  have settled := UserRow.settled_loggedIn now clientIp
  have noted := h.modifyUsers (fun r => r.id = id.number) settled
  exact noted.addSession data unused (settled.harmless.exists_id _ owner)

/-! ## What stays -/

/-- Every user is still there, and every path with the number of its namespace. -/
structure Keeps (db db' : Database) : Prop where
  users : ∀ r ∈ db.users.rows, ∃ r' ∈ db'.users.rows, r.Same r'
  paths : ∀ n ∈ db.namespaces.rows, ∃ n' ∈ db'.namespaces.rows, n'.id = n.id ∧ n'.path = n.path

theorem same_released (home : Option NamespaceRow) (r : UserRow) : r.Same (released home r) := by
  have unlinked : ∀ r : UserRow, r.Same r.unlinked := fun _ => ⟨rfl, rfl, rfl, rfl, rfl⟩
  exact UserRow.Same.ite unlinked (isReleased home) r

theorem Keeps.refl (db : Database) : db.Keeps db :=
  ⟨fun r hr => ⟨r, hr, UserRow.Same.refl r⟩, fun n hn => ⟨n, hn, rfl, rfl⟩⟩

theorem Keeps.trans {db db' db'' : Database} (h : db.Keeps db') (h' : db'.Keeps db'') :
    db.Keeps db'' := by
  constructor
  · intro r hr
    obtain ⟨r', hr', same⟩ := h.users r hr
    obtain ⟨r'', hr'', same'⟩ := h'.users r' hr'
    exact ⟨r'', hr'', same.trans same'⟩
  · intro n hn
    obtain ⟨n', hn', hid, hp⟩ := h.paths n hn
    obtain ⟨n'', hn'', hid', hp'⟩ := h'.paths n' hn'
    exact ⟨n'', hn'', hid'.trans hid, hp'.trans hp⟩

theorem keeps_withAccount {path : String} (h : db.Sound) (ha : db.Admits data path) :
    db.Keeps (db.withAccount now data path) := by
  constructor
  · intro r hr
    exact ⟨_, mem_withAccount_users.mpr (Or.inl ⟨r, hr, rfl⟩), same_released _ r⟩
  · intro n hn
    by_cases hp : n.path = path
    · refine ⟨_, (mem_withAccount_namespaces h ha).mpr (Or.inr rfl), ?_, hp.symm⟩
      rw [homeKey, h.homeAt?_eq_some hn hp]
    · exact ⟨n, (mem_withAccount_namespaces h ha).mpr (Or.inl ⟨hn, hp⟩), rfl, rfl⟩

theorem keeps_modifyUsers (db : Database) (p : UserRow → Bool) {f : UserRow → UserRow}
    (hf : UserRow.Settled f) (sessions : Table SessionRow) :
    db.Keeps { db with users := db.users.modify p f, sessions := sessions } := by
  constructor
  · intro r hr
    exact ⟨_, Table.mem_modify.mpr ⟨r, hr, rfl⟩, UserRow.Same.ite hf.same p r⟩
  · intro n hn
    exact ⟨n, hn, rfl, rfl⟩

end Database

end Gatehouse.Store
