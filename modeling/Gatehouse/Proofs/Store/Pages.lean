import Gatehouse.Proofs.Store.Readings

/-! # Pages of the list of users

A page is told by its number and its length. What stands before it is counted in 64 bits and then in 63, and what
stands on it in 63, where a count that is too great is cut. The cuts do not matter as long as the users themselves
can be counted: a page is the window of its number, and the windows side by side are the list.
-/

namespace Gatehouse.Store

open Gatehouse.Time

/-! ## Windows -/

theorem flatMap_window {α : Type} (xs : List α) (per n : Nat) :
    ((List.range n).flatMap fun page => (xs.drop (page * per)).take per) = xs.take (n * per) := by
  induction n with
  | zero => simp
  | succ n ih => rw [List.range_succ, List.flatMap_append, ih, List.flatMap_singleton, Nat.succ_mul, List.take_add]

theorem UserRow.mergeSort_of_rising {rows : List UserRow} (rising : rows.Pairwise fun r s => r.id < s.id) :
    rows.mergeSort (fun r s => r.id ≤ s.id) = rows := by
  apply List.mergeSort_of_pairwise
  exact rising.imp fun {r s} less => decide_eq_true (Int.le_of_lt less)

namespace Database

variable {db : Database}

theorem Sound.listed_eq_mergeSort (h : db.Sound) :
    db.listed = (db.users.rows.filter fun r => !r.isDeleted).mergeSort fun r s => r.id ≤ s.id :=
  (UserRow.mergeSort_of_rising h.listed_rising).symm

/-! ## Counts that are cut -/

/-- Where the users can be counted, a page is the window of its number. -/
theorem pageRows_eq (counted : db.listed.length ≤ greatestCount) (page per : Nat) :
    db.pageRows page per = (db.listed.drop (page * per)).take per := by
  have order : greatestCount ≤ greatestWord := by decide
  rw [pageRows]
  generalize greatestWord = word at *
  generalize greatestCount = count at *
  by_cases early : page * per ≤ count
  · have start : min (min (page * per) word) count = page * per := by omega
    rw [start]
    by_cases short : per ≤ count
    · rw [Nat.min_eq_left short]
    · -- a window that is too long to be counted takes all that is left, and so does the count
      have left : (db.listed.drop (page * per)).length ≤ count := by
        rw [List.length_drop]
        omega
      rw [List.take_of_length_le (by omega), List.take_of_length_le (by omega)]
  · rw [List.drop_eq_nil_of_le (by omega), List.drop_eq_nil_of_le (by omega), List.take_nil, List.take_nil]

theorem Sound.userPage_window (h : db.Sound) (counted : db.listed.length ≤ greatestCount) (page per : Nat) :
    userPage page per db = ((db.listed.drop (page * per)).take per).mapM UserRow.toUser := by
  rw [userPage_eq h.ready, pageRows_eq counted]

theorem Sound.userPages_join (h : db.Sound) (counted : db.listed.length ≤ greatestCount) {per n : Nat}
    (enough : db.listed.length ≤ n * per) :
    ((List.range n).mapM fun page => userPage page per db).map List.flatten =
      db.listed.mapM UserRow.toUser := by
  simp only [h.userPage_window counted]
  rw [mapM_flatMap, flatMap_window, List.take_of_length_le enough]

end Database

end Gatehouse.Store
