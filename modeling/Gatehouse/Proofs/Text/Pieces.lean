import Gatehouse.Text.Pieces

/-! # Pieces put together again

The pieces of a list with the separator between them are the list, and none of them holds the separator. So a
list that is written as a piece and a separator in front of a rest has that piece for its first.
-/

namespace Gatehouse.Text

variable {α : Type} (sep : α)

/-- Every piece but the first has the separator in front. -/
theorem intercalate_cons (p : List α) (ps : List (List α)) :
    [sep].intercalate (p :: ps) = p ++ ps.flatMap (sep :: ·) := by
  induction ps generalizing p with
  | nil => simp
  | cons q ps ih => rw [List.intercalate_cons_cons, ih, List.flatMap_cons, List.append_assoc]; rfl

theorem mem_of_mem_intercalate {x : α} {ps : List (List α)} (h : x ∈ [sep].intercalate ps) :
    x = sep ∨ ∃ p ∈ ps, x ∈ p := by
  induction ps with
  | nil => cases h
  | cons p ps ih =>
      cases ps with
      | nil => exact Or.inr ⟨p, List.mem_cons_self, by simpa using h⟩
      | cons q ps =>
          simp only [List.intercalate_cons_cons, List.mem_append, List.mem_singleton] at h
          rcases h with (first | between) | later
          · exact Or.inr ⟨p, List.mem_cons_self, first⟩
          · exact Or.inl between
          · exact (ih later).imp_right fun ⟨r, hr, among⟩ => ⟨r, List.mem_cons_of_mem p hr, among⟩

theorem sep_mem_intercalate {ps : List (List α)} (two : 2 ≤ ps.length) : sep ∈ [sep].intercalate ps := by
  match ps, two with
  | p :: q :: ps, _ => simp [List.intercalate_cons_cons]

variable [DecidableEq α]

theorem intercalate_pieces (xs : List α) : [sep].intercalate (pieces sep xs) = xs := by
  induction xs with
  | nil => rfl
  | cons x xs ih =>
      rw [pieces]
      by_cases here : x = sep
      · rw [if_pos here]
        cases hp : pieces sep xs with
        | nil => exact absurd hp (pieces_ne_nil sep xs)
        | cons p ps =>
            rw [hp] at ih
            rw [List.intercalate_cons_cons, ih, here]
            rfl
      · rw [if_neg here]
        cases hp : pieces sep xs with
        | nil => exact absurd hp (pieces_ne_nil sep xs)
        | cons p ps =>
            rw [hp] at ih
            cases ps with
            | nil =>
                simp only [List.intercalate_singleton] at ih ⊢
                rw [ih]
            | cons q ps =>
                rw [List.intercalate_cons_cons] at ih ⊢
                rw [← ih]
                rfl

theorem not_mem_of_mem_pieces {xs p : List α} (h : p ∈ pieces sep xs) : sep ∉ p := by
  induction xs generalizing p with
  | nil =>
      rw [pieces, List.mem_singleton] at h
      rw [h]
      exact List.not_mem_nil
  | cons x xs ih =>
      rw [pieces] at h
      by_cases here : x = sep
      · rw [if_pos here] at h
        rcases List.mem_cons.mp h with rfl | later
        · exact List.not_mem_nil
        · exact ih later
      · rw [if_neg here] at h
        cases hp : pieces sep xs with
        | nil => exact absurd hp (pieces_ne_nil sep xs)
        | cons q qs =>
            rw [hp] at h ih
            rcases List.mem_cons.mp h with rfl | later
            · rw [List.mem_cons, not_or]
              exact ⟨fun same => here same.symm, ih List.mem_cons_self⟩
            · exact ih (List.mem_cons_of_mem q later)

theorem pieces_append {p : List α} (h : sep ∉ p) (xs : List α) :
    pieces sep (p ++ sep :: xs) = p :: pieces sep xs := by
  induction p with
  | nil => simp [pieces]
  | cons x p ih =>
      rw [List.mem_cons, not_or] at h
      rw [List.cons_append, pieces, if_neg (Ne.symm h.1), ih h.2]

theorem pieces_of_not_mem {xs : List α} (h : sep ∉ xs) : pieces sep xs = [xs] := by
  induction xs with
  | nil => rfl
  | cons x xs ih =>
      rw [List.mem_cons, not_or] at h
      rw [pieces, if_neg (Ne.symm h.1), ih h.2]

theorem pieces_intercalate {ps : List (List α)} (filled : ps ≠ []) (apart : ∀ p ∈ ps, sep ∉ p) :
    pieces sep ([sep].intercalate ps) = ps := by
  induction ps with
  | nil => exact absurd rfl filled
  | cons p ps ih =>
      have first := apart p List.mem_cons_self
      cases ps with
      | nil => rw [List.intercalate_singleton, pieces_of_not_mem sep first]
      | cons q ps =>
          have rest := ih (List.cons_ne_nil q ps) fun r hr => apart r (List.mem_cons_of_mem p hr)
          rw [List.intercalate_cons_cons, List.append_assoc, List.singleton_append, pieces_append sep first, rest]

/-- The first piece is what stands before the first separator. -/
theorem head?_pieces (xs : List α) : (pieces sep xs).head? = some (xs.takeWhile fun x => x ≠ sep) := by
  induction xs with
  | nil => rfl
  | cons x xs ih =>
      rw [pieces]
      by_cases here : x = sep
      · simp [here]
      · cases hp : pieces sep xs with
        | nil => exact absurd hp (pieces_ne_nil sep xs)
        | cons p ps =>
            rw [hp] at ih
            cases ih
            simp [here]

end Gatehouse.Text
