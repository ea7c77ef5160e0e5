import Gatehouse.Proofs.Auth.SigningIn
import Gatehouse.Proofs.Http.Authority
import Gatehouse.Proofs.Store.Readings
import Mathlib.Data.List.Sort

/-! # What an answer gives away

Two stores with the same undeleted users, who look the same to the one who asks, answer every question in the
same way. Whatever else they hold may differ: addresses that are not public, hashes, the addresses that logins and
registrations came from, the namespaces of others, whoever has been deleted, and all other sessions. Pages are
counted over the undeleted users alone, so the order of the answers and the ends of the pages tell nothing either.
-/

namespace Gatehouse.Store

open Gatehouse.Time

/-! ## Looks -/

/-- Two rows look the same to others, and their addresses to those who may see them. -/
structure UserRow.LooksLike (seen : Prop) (r r' : UserRow) : Prop where
  id : r'.id = r.id
  username : r'.username = r.username
  name : r'.name = r.name
  publicEmail : r'.publicEmail = r.publicEmail
  isAdmin : r'.isAdmin = r.isAdmin
  createdAt : r'.createdAt = r.createdAt
  lastLoginAt : r'.lastLoginAt = r.lastLoginAt
  verified : r'.verifiedAt.isSome = r.verifiedAt.isSome
  email : seen ∨ r.publicEmail ≠ 0 → r'.email = r.email

instance (seen : Prop) [Decidable seen] (r r' : UserRow) : Decidable (r.LooksLike seen r') :=
  decidable_of_iff
    (r'.id = r.id ∧ r'.username = r.username ∧ r'.name = r.name ∧ r'.publicEmail = r.publicEmail ∧
      r'.isAdmin = r.isAdmin ∧ r'.createdAt = r.createdAt ∧ r'.lastLoginAt = r.lastLoginAt ∧
      r'.verifiedAt.isSome = r.verifiedAt.isSome ∧ (seen ∨ r.publicEmail ≠ 0 → r'.email = r.email))
    ⟨fun ⟨id, username, name, publicEmail, isAdmin, createdAt, lastLoginAt, verified, email⟩ =>
        ⟨id, username, name, publicEmail, isAdmin, createdAt, lastLoginAt, verified, email⟩,
      fun h => ⟨h.id, h.username, h.name, h.publicEmail, h.isAdmin, h.createdAt, h.lastLoginAt, h.verified,
        h.email⟩⟩

/-- Two stores have the same undeleted users, who look the same. -/
structure Database.LooksLike (seen : UserRow → Prop) (db db' : Database) : Prop where
  ids : ∀ k, (∃ r ∈ db.listed, r.id = k) ↔ ∃ r' ∈ db'.listed, r'.id = k
  rows : ∀ r ∈ db.listed, ∀ r' ∈ db'.listed, r'.id = r.id → r.LooksLike (seen r) r'

namespace UserRow

theorem instants_of_toUser {r : UserRow} {user : User} (h : r.toUser = .ok user) :
    instantOf "created_at" r.createdAt = .ok user.createdAt ∧
      instantOf? "last_login_at" r.lastLoginAt = .ok user.lastLoginAt := by
  rw [UserRow.toUser] at h
  obtain ⟨createdAt, created, h⟩ := exists_of_bind_eq_ok h
  obtain ⟨deletedAt, _, h⟩ := exists_of_bind_eq_ok h
  obtain ⟨verifiedAt, _, h⟩ := exists_of_bind_eq_ok h
  obtain ⟨lastLoginAt, login, h⟩ := exists_of_bind_eq_ok h
  cases h
  exact ⟨created, login⟩

end UserRow

namespace Database

variable {seen : UserRow → Prop} {db db' : Database}

/-- Lists by rising number with the same numbers have them at the same places. -/
theorem LooksLike.listed (alike : db.LooksLike seen db') (h : db.Sound) (h' : db'.Sound) :
    List.Forall₂ (fun r r' => r.LooksLike (seen r) r') db.listed db'.listed := by
  have keys : db.listed.map UserRow.id = db'.listed.map UserRow.id := by
    apply List.Pairwise.eq_of_mem_iff (r := (· < ·))
    · rw [List.pairwise_map]
      exact h.listed_rising
    · rw [List.pairwise_map]
      exact h'.listed_rising
    · intro k
      rw [List.mem_map, List.mem_map]
      exact alike.ids k
  have places : List.Forall₂ (fun r r' => r.id = r'.id) db.listed db'.listed := by
    rw [← List.forall₂_map_right_iff, ← List.forall₂_map_left_iff, List.forall₂_eq_eq_eq]
    exact keys
  rw [List.forall₂_iff_zip] at places ⊢
  refine ⟨places.1, fun {r r'} both => ?_⟩
  obtain ⟨hr, hr'⟩ := List.of_mem_zip both
  exact alike.rows r hr r' hr' (places.2 both).symm

theorem LooksLike.of_keys (keys : db.listed.map UserRow.id = db'.listed.map UserRow.id)
    (rows : ∀ r ∈ db.listed, ∀ r' ∈ db'.listed, r'.id = r.id → r.LooksLike (seen r) r') :
    db.LooksLike seen db' := by
  refine ⟨fun k => ?_, rows⟩
  rw [← List.mem_map, ← List.mem_map, keys]

theorem LooksLike.pageRows (alike : db.LooksLike seen db') (h : db.Sound) (h' : db'.Sound) (page per : Nat) :
    List.Forall₂ (fun r r' => r.LooksLike (seen r) r') (db.pageRows page per) (db'.pageRows page per) :=
  List.forall₂_take _ (List.forall₂_drop _ (alike.listed h h'))

end Database

/-- What is read from rows in pairs is equal when it is for each pair. -/
theorem map_eq_of_forall₂ {β : Type} {f g : User → β} {alike : UserRow → UserRow → Prop}
    (same : ∀ r r' u u', alike r r' → r.toUser = .ok u → r'.toUser = .ok u' → f u = g u')
    {rows rows' : List UserRow} (pairs : List.Forall₂ alike rows rows') {users users' : List User}
    (read : rows.mapM UserRow.toUser = .ok users) (read' : rows'.mapM UserRow.toUser = .ok users') :
    users.map f = users'.map g := by
  rw [mapM_eq_ok_iff] at read read'
  induction pairs generalizing users users' with
  | nil =>
      cases read
      cases read'
      rfl
  | cons here _ ih =>
      cases read with
      | cons hu rest =>
          cases read' with
          | cons hu' rest' => rw [List.map_cons, List.map_cons, same _ _ _ _ here hu hu', ih rest rest']

end Gatehouse.Store

namespace Gatehouse.Http

open Gatehouse.Auth Gatehouse.Store Gatehouse.Time

/-- Users whose rows look the same have the same profile for those who may see no more than that. -/
theorem Profile.ofUser_eq {seen : Prop} {r r' : UserRow} {u u' : User} (alike : r.LooksLike seen r')
    (read : r.toUser = .ok u) (read' : r'.toUser = .ok u') (path : Option String) {shown : Bool}
    (allowed : shown = true → seen) : Profile.ofUser u path shown = Profile.ofUser u' path shown := by
  have as := UserRow.readAs_of_toUser read
  have as' := UserRow.readAs_of_toUser read'
  obtain ⟨created, login⟩ := UserRow.instants_of_toUser read
  obtain ⟨created', login'⟩ := UserRow.instants_of_toUser read'
  rw [alike.createdAt, created] at created'
  rw [alike.lastLoginAt, login] at login'
  have publicEmail : u'.publicEmail = u.publicEmail := by
    rw [as.publicEmail, as'.publicEmail, alike.publicEmail]
  have email : (if shown || u.publicEmail then some u.email else none) =
      if shown || u'.publicEmail then some u'.email else none := by
    rw [publicEmail]
    by_cases visible : (shown || u.publicEmail) = true
    · have same : r'.email = r.email := by
        apply alike.email
        rw [Bool.or_eq_true, as.publicEmail, bne_iff_ne] at visible
        exact visible.imp allowed fun h => h
      rw [if_pos visible, if_pos visible, as.email, as'.email, same]
    · rw [if_neg visible, if_neg visible]
  simp only [Profile.ofUser, Profile.mk.injEq, true_and]
  refine ⟨?_, ?_, ?_, email, ?_, ?_, Except.ok.inj created', Except.ok.inj login'⟩
  · rw [as.id, as'.id, alike.id]
  · rw [as.username, as'.username, alike.username]
  · rw [as.name, as'.name, alike.name]
  · rw [as.isAdmin, as'.isAdmin, alike.isAdmin]
  · rw [as.isVerified, as'.isVerified, alike.verified]

namespace App

variable {app : App} {moment : Moment} {request : Request} {db db' : Database} {token : String} {v v' : UserRow}
  {user user' : User}

/-! ## Answers to who asks -/

theorem asker_of_bears (h : db.Sound) (presents : app.Presents request token) (bears : db.Bears moment.now token v)
    (read : v.toUser = .ok user) : app.asker moment request db = .ok user := by
  have found := h.userBySession_eq bears
  rw [read] at found
  exact asker_eq_ok_iff.mpr ⟨token, presents, found⟩

theorem admins_of_noAdmin (asked : app.asker moment request db = .ok user) (noAdmin : user.isAdmin = false) :
    app.admins moment request db = .error (.refusal 403 "Nur fuer Administratoren") := by
  rw [admins, askingAdmin, asked]
  simp only [ok_bind, noAdmin]
  rfl

theorem me_of_asker (h : db.Ready) (asked : app.asker moment request db = .ok user) :
    app.me moment request db = .ok (.json 200 (Profile.ofUser user
      ((db.namespaces.find? fun n => n.ownedBy user.id.number .user).map (·.path)) true).toJson) := by
  have home : Service.homeOf user db = .ok ((db.namespaces.find? fun n => n.ownedBy user.id.number .user).map
      fun n => ⟨⟨n.id⟩, user.id.number, .user, n.path⟩) := by
    simp only [Service.homeOf, Inquiry.ofQuery, Database.namespaceByOwner, h.requireOpen, ok_bind,
      namespaceOwnedBy_eq h, ok_mapError]
  rw [me, asked]
  simp only [ok_bind, home, ok_mapError]
  rw [Option.map_map]
  rfl

theorem users_of_asker {wanted : Page} {listed : List User} (asked : app.asker moment request db = .ok user)
    (query : Page.ofQuery? request.query = some wanted)
    (read : Database.userPage wanted.resolve.1 wanted.resolve.2 db = .ok listed) :
    app.users moment request db = .ok (.json 200 (.obj [("page", .int wanted.resolve.1),
      ("per", .int wanted.resolve.2), ("users", .arr
        ((listed.map fun u => Profile.ofUser u none (u.id = user.id || user.isAdmin)).map (·.toJson)))])) := by
  rw [users, query]
  simp only [asked, ok_bind, Service.userPage, Inquiry.ofQuery, read, ok_mapError]
  rfl

/-! ## The same question to two stores -/

/-- The user of a token looks the same in both stores. -/
theorem looksLike_of_bears {seen : UserRow → Prop} (alike : db.LooksLike seen db') (bears : db.Bears moment.now token v)
    (bears' : db'.Bears moment.now token v') (same : v'.id = v.id) : v.LooksLike (seen v) v' :=
  alike.rows v (Database.mem_listed.mpr ⟨bears.mem, bears.undeleted⟩) v'
    (Database.mem_listed.mpr ⟨bears'.mem, bears'.undeleted⟩) same

section Pairs

variable {seen : UserRow → Prop} (h : db.Sound) (h' : db'.Sound) (hl : db.Legible) (hl' : db'.Legible)
  (presents : app.Presents request token) (bears : db.Bears moment.now token v)
  (bears' : db'.Bears moment.now token v') (same : v'.id = v.id)

include h h' hl hl' presents bears bears'

include same in
theorem users_congr (alike : db.LooksLike seen db')
    (sight : ∀ r : UserRow, r.id = v.id ∨ v.isAdmin ≠ 0 → seen r) :
    app.users moment request db = app.users moment request db' := by
  obtain ⟨user, read⟩ := (hl v bears.mem).toUser
  obtain ⟨user', read'⟩ := (hl' v' bears'.mem).toUser
  have as := UserRow.readAs_of_toUser read
  have as' := UserRow.readAs_of_toUser read'
  have id_eq : user'.id = user.id := by rw [as.id, as'.id, same]
  have isAdmin_eq : user'.isAdmin = user.isAdmin := by
    rw [as.isAdmin, as'.isAdmin, (looksLike_of_bears alike bears bears' same).isAdmin]
  have asked := asker_of_bears h presents bears read
  have asked' := asker_of_bears h' presents bears' read'
  cases query : Page.ofQuery? request.query with
  | none =>
      rw [users, users, query]
  | some wanted =>
      obtain ⟨listed, found⟩ := hl.mapM_toUser (db.pageRows_sublist wanted.resolve.1 wanted.resolve.2)
      obtain ⟨listed', found'⟩ := hl'.mapM_toUser (db'.pageRows_sublist wanted.resolve.1 wanted.resolve.2)
      have profiles : (listed.map fun u => Profile.ofUser u none (u.id = user.id || user.isAdmin)) =
          listed'.map fun u => Profile.ofUser u none (u.id = user'.id || user'.isAdmin) := by
        apply map_eq_of_forall₂ _ (alike.pageRows h h' wanted.resolve.1 wanted.resolve.2) found found'
        intro r r' u u' look hu hu'
        have number : u.id = ⟨r.id⟩ := (UserRow.readAs_of_toUser hu).id
        have number' : u'.id = u.id := by rw [(UserRow.readAs_of_toUser hu').id, number, look.id]
        rw [id_eq, isAdmin_eq, number']
        apply Profile.ofUser_eq look hu hu'
        intro shown
        rw [Bool.or_eq_true, decide_eq_true_eq, as.isAdmin, bne_iff_ne, number, as.id] at shown
        exact sight r (shown.imp UserId.mk.inj fun admin => admin)
      rw [users_of_asker asked query ((Database.userPage_eq h.ready _ _).trans found),
        users_of_asker asked' query ((Database.userPage_eq h'.ready _ _).trans found'), profiles]

include same in
theorem me_congr (alike : db.LooksLike seen db') (sight : seen v)
    (homes : ∀ path,
      (∃ n ∈ db.namespaces.rows, n.ownerId = v.id ∧ n.ownerType = OwnerKind.user.code ∧ n.path = path) ↔
        ∃ n ∈ db'.namespaces.rows, n.ownerId = v.id ∧ n.ownerType = OwnerKind.user.code ∧ n.path = path) :
    app.me moment request db = app.me moment request db' := by
  obtain ⟨user, read⟩ := (hl v bears.mem).toUser
  obtain ⟨user', read'⟩ := (hl' v' bears'.mem).toUser
  have id_eq : user.id = ⟨v.id⟩ := (UserRow.readAs_of_toUser read).id
  have id_eq' : user'.id = ⟨v.id⟩ := by rw [(UserRow.readAs_of_toUser read').id, same]
  have paths : (db.namespaces.find? fun n => n.ownedBy v.id .user).map (·.path) =
      (db'.namespaces.find? fun n => n.ownedBy v.id .user).map (·.path) := by
    apply Option.ext
    intro path
    rw [Service.path_of_owner h v.id path, Service.path_of_owner h' v.id path]
    exact homes path
  rw [me_of_asker h.ready (asker_of_bears h presents bears read),
    me_of_asker h'.ready (asker_of_bears h' presents bears' read'), id_eq, id_eq', paths,
    Profile.ofUser_eq (looksLike_of_bears alike bears bears' same) read read' _ fun _ => sight]

theorem admins_congr (plain : v.isAdmin = 0) (plain' : v'.isAdmin = 0) :
    app.admins moment request db = app.admins moment request db' := by
  obtain ⟨user, read⟩ := (hl v bears.mem).toUser
  obtain ⟨user', read'⟩ := (hl' v' bears'.mem).toUser
  rw [admins_of_noAdmin (asker_of_bears h presents bears read),
    admins_of_noAdmin (asker_of_bears h' presents bears' read')]
  · rw [(UserRow.readAs_of_toUser read').isAdmin, plain']
    rfl
  · rw [(UserRow.readAs_of_toUser read).isAdmin, plain]
    rfl

end Pairs

/-- A request tells two stores apart by the answer of its route, and by nothing else. -/
theorem handle_congr (answers : ∀ route, Route.ofPath? app.withHealth request.path = some route →
      route.takes request.method = true →
      (app.answer moment request route db).1 = (app.answer moment request route db').1) :
    (app.handle moment request db).1 = (app.handle moment request db').1 := by
  rw [handle, handle]
  by_cases question : request.method = "OPTIONS"
  · simp only [if_pos question]
  · simp only [if_neg question]
    cases routed : Route.ofPath? app.withHealth request.path with
    | none => rfl
    | some route =>
        by_cases taken : route.takes request.method = true
        · simp only [if_pos taken, answers route routed taken]
        · simp only [if_neg taken]

/-! ## Privacy -/

/--
A token that leads to the same user in two stores that operations have led to on clocks that show four digits of
the year. Where the user is no administrator and the stores look the same to it, no request that is not posted
tells them apart, be it for the users, for itself or for the administrators. Where it is an administrator the
list of users tells them apart by what the users look like at most, addresses included: never by hashes, by where
they logged in and registered from, or by anything about others than the undeleted users.
-/
theorem privacy (app : App) (moment : Moment) (token : String) {names names' : TableNames}
    {operations operations' : List Operation} (dated : ∀ o ∈ operations, o.Dated)
    (dated' : ∀ o ∈ operations', o.Dated) :
    let db := (Database.empty names).run operations
    let db' := (Database.empty names').run operations'
    ∀ v v', db.Bears moment.now token v → db'.Bears moment.now token v' → v'.id = v.id →
      ∀ request, app.Presents request token →
        (v.isAdmin = 0 → db.LooksLike (fun r => r.id = v.id) db' →
          (∀ path,
            (∃ n ∈ db.namespaces.rows, n.ownerId = v.id ∧ n.ownerType = OwnerKind.user.code ∧ n.path = path) ↔
              ∃ n ∈ db'.namespaces.rows,
                n.ownerId = v.id ∧ n.ownerType = OwnerKind.user.code ∧ n.path = path) →
          request.method ≠ "POST" →
          (app.handle moment request db).1 = (app.handle moment request db').1) ∧
        (v.isAdmin ≠ 0 → db.LooksLike (fun _ => True) db' →
          request.method = "GET" → request.path = "/v1/users".toList →
          (app.handle moment request db).1 = (app.handle moment request db').1) := by
  intro db db' v v' bears bears' same request presents
  have h : db.Sound := ((Database.Reachable.empty names).run operations).sound
  have h' : db'.Sound := ((Database.Reachable.empty names').run operations').sound
  have hl : db.Legible := (Database.legible_empty names).run dated
  have hl' : db'.Legible := (Database.legible_empty names').run dated'
  constructor
  · intro plain alike homes unposted
    have plain' : v'.isAdmin = 0 := (looksLike_of_bears alike bears bears' same).isAdmin.trans plain
    apply handle_congr
    intro route _ taken
    cases route with
    | me => rw [answer, answer, me_congr h h' hl hl' presents bears bears' same alike rfl homes]
    | users =>
        rw [answer, answer, users_congr h h' hl hl' presents bears bears' same alike]
        intro r allowed
        exact allowed.resolve_right fun admin => admin plain
    | admins => rw [answer, answer, admins_congr h h' hl hl' presents bears bears' plain plain']
    | health => rw [answer, answer, health, health, Database.ping, Database.ping, h.ready.1, h'.ready.1]
    | _ => exact absurd (of_decide_eq_true taken) unposted
  · intro admin alike get path
    apply handle_congr
    intro route routed _
    rw [path, Route.ofPath?_users] at routed
    cases routed
    rw [answer, answer, users_congr h h' hl hl' presents bears bears' same alike fun _ _ => trivial]

/-- Ruth and Ada again, with another hash and another address of Ruth, and with somebody who has been deleted. -/
def shadowed (email : String) : List Operation :=
  [.createUser .epoch { Database.ada with
      email := email, username := "ruth", isAdmin := true, passwordHash := "other", registerIp := "10.0.0.1" },
    .commitRegistration .epoch Database.ada "ada",
    .commitRegistration .epoch { Database.ada with email := "eve@example.org", username := "eve" } "eve",
    .softDelete .epoch ⟨3⟩,
    .createNamespace ⟨1, .user, "ruth"⟩,
    .createSession ⟨⟨2⟩, "adas", "::1", .epoch, ⟨2592000, 0⟩⟩,
    .createSession ⟨⟨1⟩, "ruths", "::1", .epoch, ⟨2592000, 0⟩⟩]

/-- One who bears a token and has a property besides. -/
theorem exists_bears {now : Instant} {p : UserRow → Prop}
    (h : ∃ u ∈ db.users.rows, p u ∧ u.isDeleted = false ∧
      ∃ s ∈ db.sessions.rows, s.token = token ∧ s.validAt now = true ∧ s.ownerId = u.id) :
    ∃ u, p u ∧ db.Bears now token u := by
  obtain ⟨u, hu, hp, alive, session⟩ := h
  exact ⟨u, hp, hu, alive, session⟩

def asking (path token : String) : Request :=
  plainly "GET" path [.named "Authorization" (Text.utf8 ("Bearer " ++ token))]

/-- Ada cannot tell the two stores apart, and Ruth can by her own address only. -/
theorem privacy_staffed :
    let db := (Database.empty {}).run staffed
    let db' := (Database.empty {}).run (shadowed "elsewhere@example.org")
    let db'' := (Database.empty {}).run (shadowed "ruth@example.org")
    let start : Moment := ⟨.epoch, .epoch, "", [], 0⟩
    (∀ path ∈ ["/v1/users", "/v1/me", "/v1/admins"],
      (lobby.handle start (asking path "adas") db).1 = (lobby.handle start (asking path "adas") db').1) ∧
    (lobby.handle start (asking "/v1/users" "ruths") db).1 =
      (lobby.handle start (asking "/v1/users" "ruths") db'').1 := by
  intro db db' db'' start
  have dated : ∀ o ∈ staffed, o.Dated := by decide +kernel
  have presents : ∀ token ∈ ["adas", "ruths"], ∀ path, lobby.Presents (asking path token) token := by
    intro token among path
    have shown : ∀ token ∈ ["adas", "ruths"],
        Headers.sessionToken [.named "Authorization" (Text.utf8 ("Bearer " ++ token))] "auth-user-token" =
          some token := by
      decide +kernel
    exact presents_iff.mpr (shown token among)
  constructor
  · intro path _
    have ada : ∃ u ∈ db.users.rows, (u.id = 2 ∧ u.isAdmin = 0) ∧ u.isDeleted = false ∧
        ∃ s ∈ db.sessions.rows, s.token = "adas" ∧ s.validAt .epoch = true ∧ s.ownerId = u.id := by
      decide +kernel
    have ada' : ∃ u ∈ db'.users.rows, u.id = 2 ∧ u.isDeleted = false ∧
        ∃ s ∈ db'.sessions.rows, s.token = "adas" ∧ s.validAt .epoch = true ∧ s.ownerId = u.id := by
      decide +kernel
    obtain ⟨u, ⟨number, plain⟩, bears⟩ := exists_bears ada
    obtain ⟨u', number', bears'⟩ := exists_bears ada'
    have looks : db.LooksLike (fun r => r.id = u.id) db' := by
      rw [number]
      exact .of_keys (by decide +kernel) (by decide +kernel)
    have hers : ∀ n : NamespaceRow, n.ownerId = 2 → (n ∈ db.namespaces.rows ↔ n ∈ db'.namespaces.rows) := by
      have rows : db.namespaces.rows.filter (fun n => n.ownerId = 2) =
          db'.namespaces.rows.filter fun n => n.ownerId = 2 := by
        decide +kernel
      intro n owner
      have both := congrArg (n ∈ ·) rows
      simpa [owner] using both
    obtain ⟨equal, _⟩ := privacy lobby start "adas" dated (by decide +kernel) u u' bears bears'
      (number'.trans number.symm) (asking path "adas") (presents "adas" (by simp) path)
    refine equal plain looks (fun path => exists_congr fun n => ?_) (by simp [asking, plainly])
    rw [number]
    constructor
    · rintro ⟨stored, owner, rest⟩
      exact ⟨(hers n owner).mp stored, owner, rest⟩
    · rintro ⟨stored, owner, rest⟩
      exact ⟨(hers n owner).mpr stored, owner, rest⟩
  · have ruth : ∃ u ∈ db.users.rows, (u.id = 1 ∧ u.isAdmin ≠ 0) ∧ u.isDeleted = false ∧
        ∃ s ∈ db.sessions.rows, s.token = "ruths" ∧ s.validAt .epoch = true ∧ s.ownerId = u.id := by
      decide +kernel
    have ruth' : ∃ u ∈ db''.users.rows, u.id = 1 ∧ u.isDeleted = false ∧
        ∃ s ∈ db''.sessions.rows, s.token = "ruths" ∧ s.validAt .epoch = true ∧ s.ownerId = u.id := by
      decide +kernel
    obtain ⟨u, ⟨number, admin⟩, bears⟩ := exists_bears ruth
    obtain ⟨u', number', bears'⟩ := exists_bears ruth'
    have looks : db.LooksLike (fun _ => True) db'' := .of_keys (by decide +kernel) (by decide +kernel)
    obtain ⟨_, equal⟩ := privacy lobby start "ruths" dated (by decide +kernel) u u' bears bears'
      (number'.trans number.symm) (asking "/v1/users" "ruths") (presents "ruths" (by simp) "/v1/users")
    exact equal admin looks rfl rfl

end App

end Gatehouse.Http
