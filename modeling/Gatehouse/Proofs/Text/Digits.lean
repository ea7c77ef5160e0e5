import Gatehouse.Text.Decimal
import Mathlib.Data.List.Induction

/-! # Digits of a given width

A number below a power of ten is written in exactly so many digits, all of them digits, and reading them
gives the number. A width is taken apart at its last digit. Without a width a number is written in one way only,
with no zero in front. Numbers of one width stand in the order of their texts, whatever follows them.
-/

namespace Gatehouse.Text

theorem append_lt_append_iff {a b : List Char} (x y : List Char) (h : a.length = b.length) :
    a ++ x < b ++ y ↔ a < b ∨ a = b ∧ x < y := by
  induction a generalizing b with
  | nil =>
      have hb : b = [] := List.length_eq_zero_iff.mp h.symm
      simp [hb]
  | cons c a ih =>
      cases b with
      | nil => cases h
      | cons d b =>
          have same : a.length = b.length := Nat.succ.inj h
          simp only [List.cons_append, List.cons_lt_cons_iff, ih same, List.cons.injEq]
          grind

namespace Decimal

theorem digits_of_lt {n : Nat} (h : n < 10) : digits n = [digit n] := by
  unfold digits
  simp [h]

theorem digits_of_ge {n : Nat} (h : 10 ≤ n) : digits n = digits (n / 10) ++ [digit (n % 10)] := by
  rw [digits, dif_neg (by omega)]

theorem exists_digits_eq (n : Nat) : ∃ d ds, digits n = d :: ds ∧ d.isDigit = true := by
  cases h : digits n with
  | nil => exact absurd h (digits_ne_nil n)
  | cons d ds => exact ⟨d, ds, rfl, isDigit_of_mem_digits (by rw [h]; exact List.mem_cons_self)⟩

theorem padded_one {n : Nat} (h : n < 10) : padded 1 n = [digit n] := by
  simp [padded, digits_of_lt h]

/-- The last digit, and those before it. -/
theorem padded_succ {width : Nat} (n : Nat) (h : 0 < width) :
    padded (width + 1) n = padded width (n / 10) ++ [digit (n % 10)] := by
  by_cases hn : n < 10
  · have zero : n / 10 = 0 := by omega
    have same : n % 10 = n := by omega
    obtain ⟨width, rfl⟩ : ∃ w, width = w + 1 := ⟨width - 1, by omega⟩
    rw [zero, same, padded, padded, digits_of_lt hn, digits_of_lt (by decide)]
    simp only [List.length_singleton, Nat.add_sub_cancel, List.replicate_succ']
    rfl
  · rw [padded, padded, digits_of_ge (by omega)]
    simp only [List.length_append, List.length_singleton, Nat.add_sub_add_right, List.append_assoc]

theorem le_length_padded (width n : Nat) : width ≤ (padded width n).length := by
  simp only [padded, List.length_append, List.length_replicate]
  omega

theorem length_padded {width n : Nat} (hw : 0 < width) (hn : n < Nat.pow 10 width) :
    (padded width n).length = width := by
  induction width generalizing n with
  | zero => cases hw
  | succ width ih =>
      by_cases h : width = 0
      · subst h
        rw [padded_one (by simpa using hn)]
        rfl
      · have hq : n / 10 < Nat.pow 10 width := by
          rw [Nat.pow_eq, Nat.pow_succ] at hn
          rw [Nat.pow_eq]
          omega
        rw [padded_succ n (by omega), List.length_append, ih (by omega) hq]
        rfl

theorem length_digits_le {width n : Nat} (hw : 0 < width) (hn : n < Nat.pow 10 width) :
    (digits n).length ≤ width := by
  have length := length_padded hw hn
  rw [padded, List.length_append] at length
  omega

theorem isDigit_of_mem_padded {width n : Nat} {c : Char} (h : c ∈ padded width n) :
    c.isDigit = true := by
  rw [padded, List.mem_append] at h
  rcases h with h | h
  · rw [List.eq_of_mem_replicate h]
    decide
  · exact isDigit_of_mem_digits h

theorem value_append (cs ds : List Char) :
    value (cs ++ ds) = ds.foldl (fun n c => 10 * n + digitValue c) (value cs) := by
  rw [value, List.foldl_append]
  rfl

theorem value_replicate_zero (k : Nat) : value (List.replicate k '0') = 0 := by
  induction k with
  | zero => rfl
  | succ k ih =>
      rw [List.replicate_succ', value_append_digit, ih]
      decide

/-- Zeros in front do not count. -/
@[simp] theorem value_padded (width n : Nat) : value (padded width n) = n := by
  rw [padded, value_append, value_replicate_zero]
  exact value_digits n

/-- A run of digits ends where the text does, or where a character is none. -/
theorem span_append_of_head? {ds rest : List Char} (hd : ∀ d ∈ ds, d.isDigit = true)
    (hr : ∀ c ∈ rest.head?, c.isDigit = false) : span (ds ++ rest) = (ds, rest) := by
  rw [span, List.takeWhile_append_of_pos hd, List.dropWhile_append_of_pos hd]
  cases rest with
  | nil => rw [List.takeWhile_nil, List.dropWhile_nil, List.append_nil]
  | cons c rest =>
      have stops : ¬ c.isDigit = true := by simp [hr c rfl]
      rw [List.takeWhile_cons_of_neg stops, List.dropWhile_cons_of_neg stops, List.append_nil]

theorem span_append {ds : List Char} {c : Char} (rest : List Char)
    (hd : ∀ d ∈ ds, d.isDigit = true) (hc : c.isDigit = false) :
    span (ds ++ c :: rest) = (ds, c :: rest) := by
  apply span_append_of_head? hd
  rintro _ ⟨⟩
  exact hc

/-! ## Sizes -/

theorem toNat_of_isDigit {c : Char} (h : c.isDigit = true) : 48 ≤ c.toNat ∧ c.toNat ≤ 57 := by
  simpa [Char.isDigit, UInt32.le_iff_toNat_le] using h

theorem digitValue_lt {c : Char} (h : c.isDigit = true) : digitValue c < 10 := by
  have bounds := toNat_of_isDigit h
  rw [digitValue]
  omega

theorem digit_digitValue {c : Char} (h : c.isDigit = true) : digit (digitValue c) = c := by
  have bounds := toNat_of_isDigit h
  have same : 48 + (c.toNat - 48) = c.toNat := by omega
  rw [digit, digitValue, same, Char.ofNat_toNat]

theorem value_lt {cs : List Char} (digit : ∀ c ∈ cs, c.isDigit = true) : value cs < Nat.pow 10 cs.length := by
  induction cs using List.reverseRecOn with
  | nil => decide
  | append_singleton cs c ih =>
      have before := ih fun d hd => digit d (List.mem_append_left [c] hd)
      have last := digitValue_lt (digit c (List.mem_append_right cs List.mem_cons_self))
      have size : Nat.pow 10 (cs ++ [c]).length = Nat.pow 10 cs.length * 10 := by
        rw [List.length_append]
        rfl
      rw [value_append_digit, size]
      omega

/-! ## No superfluous zero -/

/-- Digits without a superfluous zero are those that their number is written with. -/
theorem digits_value {cs : List Char} (filled : cs ≠ []) (digit : ∀ c ∈ cs, c.isDigit = true)
    (plain : cs.head? = some '0' → cs.length = 1) : digits (value cs) = cs := by
  -- the last digit is taken off; those before it are without a superfluous zero, too
  induction cs using List.reverseRecOn with
  | nil => exact absurd rfl filled
  | append_singleton cs c ih =>
      have last := digit c (List.mem_append_right cs List.mem_cons_self)
      have small := digitValue_lt last
      have before : ∀ d ∈ cs, d.isDigit = true := fun d hd => digit d (List.mem_append_left [c] hd)
      rw [value_append_digit]
      cases cs with
      | nil =>
          have alone : value [] = 0 := rfl
          rw [alone, Nat.mul_zero, Nat.zero_add, digits_of_lt small, digit_digitValue last, List.nil_append]
      | cons d ds =>
          have nonzero : d ≠ '0' := by
            intro zero
            have short := plain (by rw [List.cons_append, List.head?_cons, zero])
            simp at short
          have rest := ih (List.cons_ne_nil d ds) before fun zero => absurd (Option.some.inj zero) nonzero
          have positive : value (d :: ds) ≠ 0 := by
            intro none
            rw [none, digits_of_lt (by decide)] at rest
            exact nonzero (List.cons.inj rest).1.symm
          have quotient : (10 * value (d :: ds) + digitValue c) / 10 = value (d :: ds) := by omega
          have remainder : (10 * value (d :: ds) + digitValue c) % 10 = digitValue c := by omega
          rw [digits_of_ge (by omega), quotient, remainder, rest, digit_digitValue last]

theorem head?_digits {n : Nat} (h : (digits n).head? = some '0') : n = 0 := by
  induction n using Nat.strongRecOn with
  | _ n ih =>
      by_cases small : n < 10
      · have zero : ∀ m : Fin 10, digit m.val = '0' → m.val = 0 := by decide
        rw [digits_of_lt small] at h
        exact zero ⟨n, small⟩ (Option.some.inj h)
      · rw [digits_of_ge (by omega), List.head?_append] at h
        have front : (digits (n / 10)).head? = some '0' := by
          obtain ⟨d, ds, hd, -⟩ := exists_digits_eq (n / 10)
          rw [hd] at h ⊢
          exact h
        have := ih (n / 10) (by omega) front
        omega

/-! ## Order -/

theorem digit_lt_digit {m n : Nat} (hm : m < 10) (hn : n < 10) : digit m < digit n ↔ m < n := by
  have all : ∀ a b : Fin 10, digit a.val < digit b.val ↔ a.val < b.val := by decide
  exact all ⟨m, hm⟩ ⟨n, hn⟩

theorem padded_inj {width m n : Nat} : padded width m = padded width n ↔ m = n := by
  constructor
  · intro h
    rw [← value_padded width m, h, value_padded]
  · intro h
    rw [h]

theorem padded_lt_padded {width m n : Nat} (hw : 0 < width) (hm : m < Nat.pow 10 width)
    (hn : n < Nat.pow 10 width) : padded width m < padded width n ↔ m < n := by
  induction width generalizing m n with
  | zero => cases hw
  | succ width ih =>
      by_cases first : width = 0
      · subst first
        have hm' : m < 10 := by simpa using hm
        have hn' : n < 10 := by simpa using hn
        simp [padded_one hm', padded_one hn', List.cons_lt_cons_iff, digit_lt_digit hm' hn']
      · have pos : 0 < width := by omega
        have scale : Nat.pow 10 (width + 1) = Nat.pow 10 width * 10 := rfl
        rw [scale] at hm hn
        have hq : m / 10 < Nat.pow 10 width := by omega
        have hq' : n / 10 < Nat.pow 10 width := by omega
        have length : (padded width (m / 10)).length = (padded width (n / 10)).length := by
          rw [length_padded pos hq, length_padded pos hq']
        have last : [digit (m % 10)] < [digit (n % 10)] ↔ m % 10 < n % 10 := by
          have digits := digit_lt_digit (m := m % 10) (n := n % 10) (by omega) (by omega)
          simp [List.cons_lt_cons_iff, digits]
        rw [padded_succ m pos, padded_succ n pos, append_lt_append_iff _ _ length, ih pos hq hq',
          padded_inj, last]
        omega

theorem padded_append_lt_iff {width m n : Nat} (hw : 0 < width) (hm : m < Nat.pow 10 width)
    (hn : n < Nat.pow 10 width) (x y : List Char) :
    padded width m ++ x < padded width n ++ y ↔ m < n ∨ m = n ∧ x < y := by
  have length : (padded width m).length = (padded width n).length := by
    rw [length_padded hw hm, length_padded hw hn]
  rw [append_lt_append_iff x y length, padded_lt_padded hw hm hn, padded_inj]

end Decimal

end Gatehouse.Text
