import Gatehouse.Proofs.Text.Blanks
import Gatehouse.Proofs.Time.ReadBack
import Mathlib.Data.List.TakeWhile

/-! # Instants in answers are read back

An answer carries an instant with all its digits. The lenient reader looks for blanks between the parts, of which
there are none, and finds the instant again: to the nanosecond, in a leap second, and in every year of the calendar,
since a year that does not have four digits carries a sign.
-/

namespace Gatehouse.Time.Rfc3339

open Gatehouse.Text Decimal

variable {rest : List Char}

/-! ## Parts of the text -/

theorem isBlank_of_isDigit {c : Char} (h : c.isDigit = true) : isBlank c = false := by
  apply IsVisible.isBlank_eq_false
  apply isVisible_of_isAlphanum
  rw [Char.isAlphanum, h, Bool.or_true]

theorem looseExpect_cons {c : Char} (h : isBlank c = false) : looseExpect c (c :: rest) = some rest := by
  simp only [looseExpect, trimStart_cons h, if_true]

theorem padded_ne_nil {width n : Nat} (h : 0 < width) : padded width n ≠ [] := by
  have length := le_length_padded width n
  intro empty
  rw [empty, List.length_nil] at length
  omega

theorem trimStart_padded {width : Nat} (h : 0 < width) (n : Nat) :
    trimStart (padded width n ++ rest) = padded width n ++ rest := by
  apply trimStart_eq_self
  intro c hc
  rw [List.head?_append_of_ne_nil _ (padded_ne_nil h)] at hc
  exact isBlank_of_isDigit (isDigit_of_mem_padded (List.mem_of_mem_head? hc))

theorem looseNumber_padded {width n : Nat} (some_digit : 0 < width) (h : n < Nat.pow 10 width) :
    looseNumber width (padded width n ++ rest) = some (n, rest) := by
  have length := length_padded some_digit h
  have digits : (padded width n).takeWhile Char.isDigit = padded width n :=
    List.takeWhile_eq_self_iff.mpr fun _ => isDigit_of_mem_padded
  rw [looseNumber, trimStart_padded some_digit, List.take_left' length, digits, if_neg (padded_ne_nil some_digit),
    value_padded, List.drop_left]

/-- What starts with a written number starts with a digit. -/
theorem padded_append_ne {width n : Nat} (h : 0 < width) {c : Char} (out : c.isDigit = false) (cs : List Char) :
    padded width n ++ rest ≠ c :: cs := by
  intro same
  have first : c ∈ (padded width n).head? := by
    rw [← List.head?_append_of_ne_nil _ (padded_ne_nil h), same]
    rfl
  rw [isDigit_of_mem_padded (List.mem_of_mem_head? first)] at out
  cases out

theorem looseYear_year (y : Int) : looseYear (year y ++ '-' :: rest) = some (y, '-' :: rest) := by
  have digits {n : Nat} : Decimal.span (padded 4 n ++ '-' :: rest) = (padded 4 n, '-' :: rest) :=
    span_append rest (fun _ => isDigit_of_mem_padded) (by decide)
  have filled {n : Nat} : padded 4 n ≠ [] := padded_ne_nil (by decide)
  rw [year]
  split
  · rename_i four
    have small : y.natAbs < Nat.pow 10 4 := by
      have tenthousand : Nat.pow 10 4 = 10000 := rfl
      omega
    have number : looseNumber 4 (padded 4 y.natAbs ++ '-' :: rest) = some (y.natAbs, '-' :: rest) :=
      looseNumber_padded (by decide) small
    have same : (y.natAbs : Int) = y := Int.natAbs_of_nonneg four.1
    rw [looseYear, trimStart_padded (by decide)]
    split
    · rename_i minus
      exact absurd minus (padded_append_ne (by decide) (by decide) _)
    · rename_i plus
      exact absurd plus (padded_append_ne (by decide) (by decide) _)
    · simp only [number, Option.map_some, same]
  · rename_i wide
    have back (s : Int) (h : s * y.natAbs = y) :
        looseYear.signed s (padded 4 y.natAbs ++ '-' :: rest) = some (y, '-' :: rest) := by
      simp only [looseYear.signed, digits, if_neg filled, value_padded, h]
    rw [List.cons_append]
    split
    · rename_i negative
      rw [looseYear, trimStart_cons (by decide)]
      exact back (-1) (by omega)
    · rename_i positive
      rw [looseYear, trimStart_cons (by decide)]
      exact back 1 (by omega)

/-- The fraction is written with as many digits as it needs, and of those that are left out all are zeros. -/
theorem optionalFraction_fraction {nanos : Nat} (h : nanos < Instant.second) :
    optionalFraction (fraction nanos ++ ['Z']) = .ok (nanos, ['Z']) := by
  have billion : Nat.pow 10 9 = Instant.second := rfl
  have million : Nat.pow 10 6 = 1000000 := rfl
  have thousand : Nat.pow 10 3 = 1000 := rfl
  have after : Char.isDigit 'Z' = false := by decide
  have read {width n : Nat} (some_digit : 0 < width) (few : width ≤ 9) (small : n < Nat.pow 10 width)
      (same : n * Nat.pow 10 (9 - width) = nanos) :
      optionalFraction ('.' :: padded width n ++ ['Z']) = .ok (nanos, ['Z']) := by
    rw [List.cons_append, optionalFraction_padded some_digit few small [] after, same]
  simp only [Instant.second] at h billion
  rw [fraction]
  split
  · rename_i zero
    rw [zero]
    rfl
  split
  · exact read (by decide) (by decide) (by omega) (by rw [million]; omega)
  split
  · exact read (by decide) (by decide) (by omega) (by rw [thousand]; omega)
  · exact read (by decide) (by decide) (by omega) (Nat.mul_one nanos)

/-! ## The whole text -/

theorem write_eq (t : Instant) : write t =
    year t.date.year ++ '-' :: (padded 2 t.date.month ++ '-' :: (padded 2 t.date.day ++
      'T' :: (padded 2 (t.secondOfDay / 3600) ++ ':' :: (padded 2 (t.secondOfDay / 60 % 60) ++
        ':' :: (padded 2 (shownSecond t) ++ (fraction (t.nanos % Instant.second) ++ ['Z'])))))) := by
  simp only [write, writeWith, date, clock, shownSecond, List.append_assoc, List.cons_append, decide_eq_true_eq]

theorem readLoose_write {t : Instant} (representable : t.Representable) (proper : t.Proper) :
    readLoose (write t) = some t := by
  have inDay := secondOfDay_lt t
  have inMinute := shownSecond_le t
  have valid := valid_date t
  have hundred : Nat.pow 10 2 = 100 := rfl
  have month : t.date.month < Nat.pow 10 2 := Nat.lt_of_le_of_lt valid.2.1 (by decide)
  have day : t.date.day < Nat.pow 10 2 := Nat.lt_of_le_of_lt (day_le t) (by decide)
  have hour : t.secondOfDay / 3600 < Nat.pow 10 2 := by omega
  have minute : t.secondOfDay / 60 % 60 < Nat.pow 10 2 := by omega
  have second : shownSecond t < Nat.pow 10 2 := by omega
  have number {n : Nat} {rest : List Char} (small : n < Nat.pow 10 2) :
      looseNumber 2 (padded 2 n ++ rest) = some (n, rest) := looseNumber_padded (by decide) small
  have hyphen {rest : List Char} : looseExpect '-' ('-' :: rest) = some rest := looseExpect_cons (by decide)
  have colon {rest : List Char} : looseExpect ':' (':' :: rest) = some rest := looseExpect_cons (by decide)
  have fraction := optionalFraction_fraction (Nat.mod_lt t.nanos (y := Instant.second) (by decide))
  rw [readLoose, write_eq]
  simp only [looseYear_year, hyphen, colon, number month, number day, number hour, number minute, number second,
    fraction, bind, Option.bind, read.separator, true_or, if_true, Except.toOption]
  exact assemble_parts representable proper

end Gatehouse.Time.Rfc3339
