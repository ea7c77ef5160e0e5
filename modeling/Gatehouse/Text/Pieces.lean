/-!
# Pieces of a list

Cutting a list at a separator: into all of its pieces, or into what stands before and after the
first one.
-/

namespace Gatehouse.Text

variable {α : Type} [DecidableEq α]

/-- The pieces between the separators; there is always one more piece than separators. -/
def pieces (sep : α) : List α → List (List α)
  | [] => [[]]
  | x :: xs =>
    if x = sep then
      [] :: pieces sep xs
    else
      match pieces sep xs with
      | [] => [[x]]
      | p :: ps => (x :: p) :: ps

def cut (sep : α) : List α → Option (List α × List α)
  | [] => none
  | x :: xs =>
    if x = sep then
      some ([], xs)
    else
      (cut sep xs).map fun (before, after) => (x :: before, after)

theorem pieces_ne_nil (sep : α) (xs : List α) : pieces sep xs ≠ [] := by
  cases xs with
  | nil => simp [pieces]
  | cons x xs =>
    unfold pieces
    split
    · simp
    · split <;> simp

theorem cut_append {sep : α} {before : List α} (after : List α) (h : sep ∉ before) :
    cut sep (before ++ sep :: after) = some (before, after) := by
  induction before with
  | nil => simp [cut]
  | cons x xs ih =>
    simp only [List.mem_cons, not_or] at h
    have hx : x ≠ sep := fun e => h.1 e.symm
    simp [cut, hx, ih h.2]

end Gatehouse.Text
