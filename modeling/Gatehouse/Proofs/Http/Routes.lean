import Gatehouse.Http.Route
import Gatehouse.Proofs.Text.Pieces

/-! # Paths and what they lead to

A path is told from its pieces, and its pieces put together again are the path. So a route that is found says
how the path is written, and the only part of a path that can vary is the one that stands for a user: it holds
no slash, and may hold any other character.
-/

namespace Gatehouse.Http.Route

open Gatehouse.Text

variable {withHealth : Bool} {path segment : List Char}

private theorem eq_map_toList {ps : List (List Char)} {names : List String}
    (h : ps.map String.ofList = names) : ps = names.map String.toList := by
  rw [← h, List.map_map]
  have same : String.toList ∘ String.ofList = id := funext fun _ => String.toList_ofList
  rw [same, List.map_id]

/-- How the path of a route is written. -/
def written : Route → List Char
  | login => "/v1/login".toList
  | register => "/v1/register".toList
  | me => "/v1/me".toList
  | users => "/v1/users".toList
  | activate segment => "/v1/users/".toList ++ segment ++ "/activate".toList
  | admins => "/v1/admins".toList
  | health => "/health".toList

theorem path_of_ofPath? {route : Route} (h : ofPath? withHealth path = some route) :
    path = route.written := by
  rw [ofPath?] at h
  rw [← intercalate_pieces '/' path]
  split at h
  case h_7 parts =>
    split at h
    · cases h
      rw [eq_map_toList parts]
      rfl
    · cases h
  case h_8 => cases h
  all_goals
    rename_i parts
    cases h
    rw [eq_map_toList parts]
    rfl

/-- The path of an activation, written out. -/
theorem path_of_activate (h : ofPath? withHealth path = some (activate segment)) :
    path = "/v1/users/".toList ++ segment ++ "/activate".toList ∧ '/' ∉ segment := by
  have names : pieces '/' path = [[], "v1".toList, "users".toList, segment, "activate".toList] := by
    rw [ofPath?] at h
    -- the fifth pattern is that of an activation, and the seventh asks whether there are reports on health
    split at h
    case h_5 name written =>
      cases h
      exact eq_map_toList written
    case h_7 =>
      split at h <;> cases h
    all_goals cases h
  have among : segment ∈ pieces '/' path := by
    rw [names]
    simp
  exact ⟨path_of_ofPath? h, not_mem_of_mem_pieces '/' among⟩

theorem ofPath?_activate (noSlash : '/' ∉ segment) :
    ofPath? withHealth ("/v1/users/".toList ++ segment ++ "/activate".toList) = some (activate segment) := by
  have shape : "/v1/users/".toList ++ segment ++ "/activate".toList =
      [] ++ '/' :: ("v1".toList ++ '/' :: ("users".toList ++ '/' :: (segment ++ '/' :: "activate".toList))) := rfl
  have last : pieces '/' "activate".toList = ["activate".toList] := rfl
  have parts : (pieces '/' ("/v1/users/".toList ++ segment ++ "/activate".toList)).map String.ofList =
      ["", "v1", "users", String.ofList segment, "activate"] := by
    rw [shape, pieces_append '/' (by decide), pieces_append '/' (by decide), pieces_append '/' (by decide),
      pieces_append '/' noSlash, last]
    rfl
  rw [ofPath?, parts]
  simp

theorem ofPath?_login : ofPath? withHealth "/v1/login".toList = some login := by
  cases withHealth <;> rfl

theorem ofPath?_users : ofPath? withHealth "/v1/users".toList = some users := by
  cases withHealth <;> rfl

theorem ofPath?_admins : ofPath? withHealth "/v1/admins".toList = some admins := by
  cases withHealth <;> rfl

end Gatehouse.Http.Route
