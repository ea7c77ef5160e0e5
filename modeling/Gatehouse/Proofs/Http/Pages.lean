import Gatehouse.Proofs.Http.Privacy
import Gatehouse.Proofs.Store.Pages

/-! # The list of users, page by page

Clients are shown the list of users in pages of one to a hundred, and of twenty where they do not say. However long
they ask a page to be, the pages from the first on are the undeleted users by rising number, each of them once.
-/

namespace Gatehouse.Http

open Gatehouse.Auth Gatehouse.Store Gatehouse.Time

/-- Whatever length is asked for, a page has room for one and for no more than a hundred. -/
theorem Page.resolve_length (p : Page) : 1 ≤ p.resolve.2 ∧ p.resolve.2 ≤ 100 := by
  simp only [resolve, greatestLength]
  omega

namespace App

variable {app : App} {moment : Moment} {request : Request} {db : Database} {asker : User} {page : Nat}
  {per : Option Nat}

/-- Someone asks for a page of the users and for its length, if at all. Without a number it is the first page. -/
structure AsksForPage (app : App) (moment : Moment) (db : Database) (request : Request) (asker : User) (page : Nat)
    (per : Option Nat) : Prop where
  get : request.method = "GET"
  path : request.path = "/v1/users".toList
  asker : app.asker moment request db = .ok asker
  query : ∃ number, Page.ofQuery? request.query = some ⟨number, per⟩ ∧ number.getD 0 = page

/-- The answer that shows some users as a page. -/
def pageShown (app : App) (request : Request) (asker : User) (page length : Nat) (users : List User) : Response :=
  { Response.json 200 (.obj [("page", .int page), ("per", .int length),
      ("users", .arr (users.map fun u => (Profile.ofUser u none (u.id = asker.id || asker.isAdmin)).toJson))]) with
    access := app.cors.onAnswer request.headers }

theorem handle_users (get : request.method = "GET") (path : request.path = "/v1/users".toList) :
    (app.handle moment request db).1 =
      some { settle (app.users moment request db) with access := app.cors.onAnswer request.headers } := by
  have routed : Route.ofPath? app.withHealth request.path = some .users := by
    rw [path, Route.ofPath?_users]
  rw [handle]
  simp only [get, routed]
  rfl

theorem AsksForPage.handle_eq (asks : app.AsksForPage moment db request asker page per) {length : Nat}
    (length_eq : (Page.mk none per).resolve.2 = length) {users : List User}
    (read : Database.userPage page length db = .ok users) :
    (app.handle moment request db).1 = some (app.pageShown request asker page length users) := by
  obtain ⟨number, query, number_eq⟩ := asks.query
  have resolved : Page.resolve ⟨number, per⟩ = (page, length) := by
    rw [← number_eq, ← length_eq]
    rfl
  have found : Database.userPage (Page.resolve ⟨number, per⟩).1 (Page.resolve ⟨number, per⟩).2 db = .ok users := by
    rw [resolved]
    exact read
  have answered := users_of_asker asks.asker query found
  rw [resolved] at answered
  rw [handle_users asks.get asks.path, answered, List.map_map]
  rfl

/--
After any run of operations let the undeleted users be sorted by their numbers. As long as they can be counted, a
page of the store is a window of them that is neither cut nor moved, and enough pages joined are all of them. On
clocks that show four digits of the year all of them can be read. Then every request for a page is answered with
the window of its number, and its length is from one to a hundred; enough of these windows joined are all the users.
-/
theorem pages_join (app : App) (names : TableNames) (operations : List Operation) :
    let db := (Database.empty names).run operations
    let everyone := (db.users.rows.filter fun r => !r.isDeleted).mergeSort fun r s => r.id ≤ s.id
    everyone.length < Nat.pow 2 63 →
    everyone.Pairwise (fun r s => r.id < s.id) ∧
    (∀ r, r ∈ everyone ↔ r ∈ db.users.rows ∧ r.isDeleted = false) ∧
    (∀ page per, Database.userPage page per db = ((everyone.drop (page * per)).take per).mapM UserRow.toUser) ∧
    (∀ per n, everyone.length ≤ n * per →
      ((List.range n).mapM fun page => Database.userPage page per db).map List.flatten =
        everyone.mapM UserRow.toUser) ∧
    ((∀ o ∈ operations, o.Dated) →
      ∃ users, everyone.mapM UserRow.toUser = .ok users ∧ users.map (·.id.number) = everyone.map UserRow.id ∧
        ∀ per : Option Nat,
          let length := (Page.mk none per).resolve.2
          let shown := fun page => (users.drop (page * length)).take length
          1 ≤ length ∧ length ≤ 100 ∧ (∀ page, (shown page).length ≤ length) ∧
          (∀ n, users.length ≤ n * length → (List.range n).flatMap shown = users) ∧
          ∀ moment request asker page, app.AsksForPage moment db request asker page per →
            (app.handle moment request db).1 = some (app.pageShown request asker page length (shown page))) := by
  intro db everyone
  have sound : db.Sound := ((Database.Reachable.empty names).run operations).sound
  have sorted : everyone = db.listed := sound.listed_eq_mergeSort.symm
  rw [sorted]
  intro few
  have counted : db.listed.length ≤ Database.greatestCount := Nat.le_sub_one_of_lt few
  refine ⟨sound.listed_rising, fun r => Database.mem_listed, sound.userPage_window counted,
    fun per n => sound.userPages_join counted, ?_⟩
  intro dated
  have legible : db.Legible := (Database.legible_empty names).run dated
  obtain ⟨users, read⟩ := legible.mapM_toUser (List.Sublist.refl db.listed)
  have pairs := mapM_eq_ok_iff.mp read
  refine ⟨users, read, UserRow.numbers_of_mapM read, fun per => ?_⟩
  intro length shown
  obtain ⟨least, most⟩ := Page.resolve_length ⟨none, per⟩
  refine ⟨least, most, fun page => List.length_take_le _ _, ?_, ?_⟩
  · intro n enough
    rw [flatMap_window, List.take_of_length_le enough]
  · intro moment request asker page asks
    apply asks.handle_eq rfl
    -- who is read from a window of the rows is the window of who is read from all of them
    rw [sound.userPage_window counted, mapM_eq_ok_iff]
    exact List.forall₂_take _ (List.forall₂_drop _ pairs)

/-- A request for the users with the token of a session. -/
def leafing (query token : String) : Request :=
  { asking "/v1/users" token with query := query.toList }

/--
Ruth and Ada on two pages of one user each, and nobody on the last page that can be asked for. Ada asks for the
second page with no room on it, and is shown herself; she asks for no page in particular, and is shown both.
-/
theorem pages_join_staffed :
    let db := (Database.empty {}).run staffed
    let start : Moment := ⟨.epoch, .epoch, "", [], 0⟩
    Database.userPage Database.greatestWord Database.greatestWord db = .ok [] ∧
    ∃ ruth ada : User, ruth.id = ⟨1⟩ ∧ ada.id = ⟨2⟩ ∧
      ((List.range 2).mapM fun page => Database.userPage page 1 db).map List.flatten = .ok [ruth, ada] ∧
      (lobby.handle start (leafing "page=1&per=0" "adas") db).1 =
        some (lobby.pageShown (leafing "page=1&per=0" "adas") ada 1 1 [ada]) ∧
      (lobby.handle start (leafing "" "adas") db).1 =
        some (lobby.pageShown (leafing "" "adas") ada 0 20 [ruth, ada]) := by
  intro db start
  have sound : db.Sound := ((Database.Reachable.empty {}).run staffed).sound
  have dated : ∀ o ∈ staffed, o.Dated := by decide +kernel
  have numbers : db.listed.map UserRow.id = [1, 2] := by decide +kernel
  have two : db.listed.length = 2 := by decide +kernel
  obtain ⟨_, _, window, joined, shown⟩ := pages_join lobby {} staffed (by
    rw [← sound.listed_eq_mergeSort, two]
    decide)
  rw [← sound.listed_eq_mergeSort] at window joined shown
  have last : Database.userPage Database.greatestWord Database.greatestWord db = .ok [] := by
    rw [window, List.drop_eq_nil_of_le (by rw [two]; decide), List.take_nil]
    rfl
  obtain ⟨users, read, ids, answers⟩ := shown dated
  rw [numbers] at ids
  obtain ⟨ruth, ada, rfl⟩ : ∃ ruth ada, users = [ruth, ada] :=
    List.length_eq_two.mp (by simpa using congrArg List.length ids)
  have ids' : ruth.id.number = 1 ∧ ada.id.number = 2 := by simpa using ids
  have second : ∀ query ∈ ["page=1&per=0", ""], (lobby.asker start (leafing query "adas") db).toOption =
      (db.listed.mapM UserRow.toUser).toOption.bind (·[1]?) := by
    decide +kernel
  have asked : ∀ query ∈ ["page=1&per=0", ""], lobby.asker start (leafing query "adas") db = .ok ada := by
    intro query among
    apply eq_ok_of_toOption
    rw [second query among, read]
    rfl
  obtain ⟨_, _, _, _, zero⟩ := answers (some 0)
  obtain ⟨_, _, _, _, missing⟩ := answers none
  refine ⟨last, ruth, ada, congrArg UserId.mk ids'.1, congrArg UserId.mk ids'.2, ?_, ?_, ?_⟩
  · rw [joined 1 2 (by rw [two])]
    exact read
  · exact zero start _ ada 1 ⟨rfl, rfl, asked _ (by simp), some 1, by decide +kernel, rfl⟩
  · exact missing start _ ada 0 ⟨rfl, rfl, asked _ (by simp), none, by decide +kernel, rfl⟩

end App

end Gatehouse.Http
