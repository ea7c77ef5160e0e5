import Gatehouse.Proofs.Text.Ascii
import Gatehouse.Text.Blank
import Mathlib.Data.List.DropRight

/-! # Texts without blanks at their ends

Trimming drops the blanks at both ends and nothing else, and so it leaves a text alone exactly where neither its
first nor its last character is blank. What has been trimmed is such a text. Visible ASCII characters are not
blank.
-/

namespace Gatehouse.Text

/-- Neither the first nor the last character is blank. -/
structure Trimmed (cs : List Char) : Prop where
  first : ∀ c ∈ cs.head?, isBlank c = false
  last : ∀ c ∈ cs.getLast?, isBlank c = false

variable {cs left right : List Char}

/-! ## One end at a time -/

theorem trimStart_eq_self (first : ∀ c ∈ cs.head?, isBlank c = false) : trimStart cs = cs := by
  cases cs with
  | nil => rfl
  | cons c cs => exact List.dropWhile_cons_of_neg (by simp [first c rfl])

theorem trimStart_cons {c : Char} (h : isBlank c = false) (cs : List Char) : trimStart (c :: cs) = c :: cs := by
  apply trimStart_eq_self
  rintro _ ⟨⟩
  exact h

theorem first_trimStart (cs : List Char) : ∀ c ∈ (trimStart cs).head?, isBlank c = false := by
  intro c hc
  have stopped := List.head?_dropWhile_not isBlank cs
  rw [← trimStart, Option.mem_def.mp hc] at stopped
  exact stopped

theorem trimStart_append (blank : ∀ c ∈ left, isBlank c = true) : trimStart (left ++ cs) = trimStart cs :=
  List.dropWhile_append_of_pos blank

theorem trimEnd_eq_reverse (cs : List Char) : trimEnd cs = (trimStart cs.reverse).reverse :=
  rfl

theorem trimEnd_eq_self (last : ∀ c ∈ cs.getLast?, isBlank c = false) : trimEnd cs = cs := by
  rw [← List.head?_reverse] at last
  rw [trimEnd_eq_reverse, trimStart_eq_self last, List.reverse_reverse]

theorem last_trimEnd (cs : List Char) : ∀ c ∈ (trimEnd cs).getLast?, isBlank c = false := by
  rw [trimEnd_eq_reverse, List.getLast?_reverse]
  exact first_trimStart cs.reverse

theorem trimEnd_append (blank : ∀ c ∈ right, isBlank c = true) : trimEnd (cs ++ right) = trimEnd cs := by
  have blank' : ∀ c ∈ right.reverse, isBlank c = true := fun c hc => blank c (List.mem_reverse.mp hc)
  rw [trimEnd_eq_reverse, List.reverse_append, trimStart_append blank', trimEnd_eq_reverse]

theorem isPrefix_trimEnd (cs : List Char) : trimEnd cs <+: cs :=
  List.rdropWhile_prefix isBlank cs

/-! ## Both ends -/

theorem trimmed_trimChars (cs : List Char) : Trimmed (trimChars cs) where
  first := by
    intro c hc
    obtain ⟨dropped, parts⟩ := isPrefix_trimEnd (trimStart cs)
    apply first_trimStart cs
    rw [← parts, List.head?_append, ← trimChars, Option.mem_def.mp hc]
    rfl
  last := last_trimEnd (trimStart cs)

theorem Trimmed.trimChars_eq (h : Trimmed cs) : trimChars cs = cs := by
  rw [trimChars, trimStart_eq_self h.first, trimEnd_eq_self h.last]

/-- Trimming twice is trimming once. -/
@[simp] theorem trimChars_trimChars (cs : List Char) : trimChars (trimChars cs) = trimChars cs :=
  (trimmed_trimChars cs).trimChars_eq

@[simp] theorem trim_trim (s : String) : trim (trim s) = trim s := by
  simp only [trim, String.toList_ofList, trimChars_trimChars]

/-- Blanks around a text are what trimming drops. -/
theorem Trimmed.trimChars_between (h : Trimmed cs) (blank_left : ∀ c ∈ left, isBlank c = true)
    (blank_right : ∀ c ∈ right, isBlank c = true) : trimChars (left ++ cs ++ right) = cs := by
  rw [trimChars, List.append_assoc, trimStart_append blank_left]
  cases cs with
  | nil =>
      have nothing : trimStart right = [] := List.dropWhile_eq_nil_iff.mpr blank_right
      rw [List.nil_append, nothing]
      rfl
  | cons c cs =>
      have first : ∀ d ∈ (c :: cs ++ right).head?, isBlank d = false := h.first
      rw [trimStart_eq_self first, trimEnd_append blank_right, trimEnd_eq_self h.last]

theorem mem_of_mem_trimChars {c : Char} (h : c ∈ trimChars cs) : c ∈ cs :=
  List.dropWhile_subset isBlank ((isPrefix_trimEnd (trimStart cs)).subset h)

/-! ## Visible characters -/

theorem IsVisible.isBlank_eq_false {c : Char} (h : IsVisible c) : isBlank c = false := by
  obtain ⟨above, below⟩ := h
  simp [isBlank]
  omega

theorem trimmed_of_visible (h : ∀ c ∈ cs, IsVisible c) : Trimmed cs where
  first := fun c hc => (h c (List.mem_of_mem_head? hc)).isBlank_eq_false
  last := fun c hc => (h c (List.mem_of_mem_getLast? hc)).isBlank_eq_false

end Gatehouse.Text
