import Gatehouse.Proofs.Text.Digits
import Gatehouse.Proofs.Time.Calendar
import Gatehouse.Time.Rfc3339

/-! # Instants that the store can read back

The text that is kept of an instant has its digits at fixed places as long as the year has four of them.
The strict reader takes such a text apart into the parts it was made of, and they are parts of an instant
again. A year of more digits is written with a sign, which that reader refuses.
-/

namespace Gatehouse.Time

open Gatehouse.Text

/-- An instant whose year has four digits, as the clock shows them. -/
def Instant.Dated (t : Instant) : Prop :=
  0 ≤ t.date.year ∧ t.date.year ≤ 9999

instance (t : Instant) : Decidable t.Dated := by
  unfold Instant.Dated
  infer_instance

namespace Rfc3339

open Decimal

/-! ## Parts of the text -/

theorem oneDigit_digit {n : Nat} (h : n < 10) (rest : List Char) :
    oneDigit (digit n :: rest) = .ok (n, rest) := by
  rw [oneDigit, if_pos (isDigit_digit h), digitValue_digit h]

theorem twoDigits_padded {n : Nat} (h : n < 100) (rest : List Char) :
    twoDigits (padded 2 n ++ rest) = .ok (n, rest) := by
  have sum : 10 * (n / 10) + n % 10 = n := by omega
  rw [padded_succ n (by decide), padded_one (by omega)]
  simp only [twoDigits, List.cons_append, List.nil_append, oneDigit_digit (n := n / 10) (by omega),
    oneDigit_digit (n := n % 10) (by omega), bind, Except.bind, sum]
  rfl

/-- Four digits are twice two. -/
theorem padded_four (n : Nat) : padded 4 n = padded 2 (n / 100) ++ padded 2 (n % 100) := by
  have hundreds : n / 10 / 10 = n / 100 := by omega
  have tens : n / 10 % 10 = n % 100 / 10 := by omega
  have ones : n % 10 = n % 100 % 10 := by omega
  rw [padded_succ n (by decide), padded_succ (n / 10) (by decide), padded_succ (n % 100) (by decide),
    padded_one (n := n % 100 / 10) (by omega), hundreds, tens, ones, List.append_assoc]

theorem fourDigits_padded {n : Nat} (h : n < 10000) (rest : List Char) :
    fourDigits (padded 4 n ++ rest) = .ok (n, rest) := by
  have sum : 100 * (n / 100) + n % 100 = n := by omega
  rw [padded_four, List.append_assoc]
  simp only [fourDigits, twoDigits_padded (n := n / 100) (by omega),
    twoDigits_padded (n := n % 100) (by omega), bind, Except.bind, sum]
  rfl

theorem expect_cons (c : Char) (rest : List Char) : expect c (c :: rest) = .ok rest := by
  rw [expect, if_pos rfl]

/-- The digits of a fraction count in the order of their places. -/
theorem nanoDigits_append {ds : List Char} {c : Char} (rest : List Char) (hne : ds ≠ [])
    (hd : ∀ d ∈ ds, d.isDigit = true) (hc : c.isDigit = false) :
    nanoDigits (ds ++ c :: rest) =
      .ok (value (ds.take 9) * Nat.pow 10 (9 - (ds.take 9).length), c :: rest) := by
  rw [nanoDigits, span_append rest hd hc]
  cases ds with
  | nil => exact absurd rfl hne
  | cons d ds => rfl

/-- A fraction of up to nine digits counts the nanoseconds of its last place. -/
theorem optionalFraction_padded {width n : Nat} (some_digit : 0 < width) (few : width ≤ 9)
    (h : n < Nat.pow 10 width) {c : Char} (rest : List Char) (hc : c.isDigit = false) :
    optionalFraction ('.' :: (padded width n ++ c :: rest)) = .ok (n * Nat.pow 10 (9 - width), c :: rest) := by
  have length := length_padded some_digit h
  have all : (padded width n).take 9 = padded width n := List.take_of_length_le (by omega)
  have filled : padded width n ≠ [] := by
    intro he
    rw [he, List.length_nil] at length
    omega
  rw [optionalFraction, nanoDigits_append rest filled (fun _ => isDigit_of_mem_padded) hc, all,
    value_padded, length]

theorem optionalFraction_micros {n : Nat} (h : n < Nat.pow 10 6) {c : Char} (rest : List Char)
    (hc : c.isDigit = false) :
    optionalFraction ('.' :: (padded 6 n ++ c :: rest)) = .ok (n * 1000, c :: rest) :=
  optionalFraction_padded (by decide) (by decide) h rest hc

/-! ## The whole text -/

/-- The second of a written instant: a leap second is one more than the second it belongs to. -/
def shownSecond (t : Instant) : Nat :=
  t.secondOfDay % 60 + if Instant.second ≤ t.nanos then 1 else 0

theorem stored_eq {t : Instant} (h : t.Dated) : stored t =
    padded 4 t.date.year.toNat ++ '-' :: (padded 2 t.date.month ++ '-' :: (padded 2 t.date.day ++
      'T' :: (padded 2 (t.secondOfDay / 3600) ++ ':' :: (padded 2 (t.secondOfDay / 60 % 60) ++
        ':' :: (padded 2 (shownSecond t) ++
          '.' :: (padded 6 (t.nanos % Instant.second / 1000) ++ ['Z'])))))) := by
  have natAbs : t.date.year.natAbs = t.date.year.toNat := by
    have := h.1
    omega
  have unsigned : year t.date.year = padded 4 t.date.year.toNat := by
    rw [year, if_pos ⟨h.1, h.2⟩, natAbs]
  simp only [stored, writeWith, date, unsigned, clock, shownSecond, List.append_assoc,
    List.cons_append, decide_eq_true_eq]

theorem nineteen_le_octetCount {t : Instant} (h : t.Dated) : 19 ≤ octetCount (stored t) := by
  have octets := length_le_octetCount (stored t)
  have inYear := le_length_padded 4 t.date.year.toNat
  have inMonth := le_length_padded 2 t.date.month
  have inDay := le_length_padded 2 t.date.day
  have inHour := le_length_padded 2 (t.secondOfDay / 3600)
  have inMinute := le_length_padded 2 (t.secondOfDay / 60 % 60)
  have inSecond := le_length_padded 2 (shownSecond t)
  rw [stored_eq h] at octets ⊢
  simp only [List.length_append, List.length_cons] at octets
  omega

/-! ## Bounds of the parts -/

theorem secondOfDay_lt (t : Instant) : t.secondOfDay < 86400 := by
  have hf : t.seconds.fmod Instant.day = t.seconds % 86400 :=
    Int.fmod_eq_emod_of_nonneg _ (by decide)
  rw [Instant.secondOfDay, hf]
  omega

/-- The seconds of an instant are those of its whole days and those since midnight. -/
theorem seconds_eq (t : Instant) : t.seconds = t.seconds.fdiv Instant.day * 86400 + t.secondOfDay := by
  have hd : t.seconds.fdiv Instant.day = t.seconds / 86400 :=
    Int.fdiv_eq_ediv_of_nonneg _ (by decide)
  have hm : t.seconds.fmod Instant.day = t.seconds % 86400 :=
    Int.fmod_eq_emod_of_nonneg _ (by decide)
  rw [hd, Instant.secondOfDay, hm]
  omega

theorem shownSecond_le (t : Instant) : shownSecond t ≤ 60 := by
  rw [shownSecond]
  split <;> omega

theorem micros_lt (t : Instant) : t.nanos % Instant.second / 1000 < Nat.pow 10 6 := by
  have million : Nat.pow 10 6 = 1000000 := rfl
  rw [million, Instant.second]
  omega

theorem valid_date (t : Instant) : t.date.Valid :=
  Date.valid_ofDayNumber _

/-- No month is longer than 31 days. -/
theorem day_le (t : Instant) : t.date.day ≤ 31 := by
  have hd := (valid_date t).2.2.2
  simp only [daysInMonth] at hd
  split at hd <;> split at hd <;> omega

/-! ## Reading it back -/

/-- The strict reader takes the text apart into the parts it was made of. -/
theorem read_stored_eq {t : Instant} (h : t.Dated) : read (stored t) =
    match assemble t.date (t.secondOfDay / 3600) (t.secondOfDay / 60 % 60) (shownSecond t)
        (t.nanos % Instant.second / 1000 * 1000) 0 with
    | some t' => .ok t'
    | none => .error .outOfRange := by
  have inDay := secondOfDay_lt t
  have inMinute := shownSecond_le t
  have valid := valid_date t
  have long : ¬ octetCount (stored t) < 19 := Nat.not_lt.mpr (nineteen_le_octetCount h)
  have year : t.date.year.toNat < 10000 := by
    have := h.2
    omega
  have yearBack : ((t.date.year.toNat : Nat) : Int) = t.date.year := Int.toNat_of_nonneg h.1
  have month : t.date.month < 100 := Nat.lt_of_le_of_lt valid.2.1 (by decide)
  have day : t.date.day < 100 := Nat.lt_of_le_of_lt (day_le t) (by decide)
  have hour : t.secondOfDay / 3600 < 100 := by omega
  have minute : t.secondOfDay / 60 % 60 < 100 := by omega
  have second : shownSecond t < 100 := by omega
  have notDigit : Char.isDigit 'Z' = false := by decide
  have inRange : ¬ (24 ≤ t.secondOfDay / 3600 ∨ 60 ≤ t.secondOfDay / 60 % 60 ∨ 61 ≤ shownSecond t) := by
    omega
  rw [read, if_neg long, stored_eq h]
  simp only [fourDigits_padded year, twoDigits_padded month, twoDigits_padded day, expect_cons, bind,
    Except.bind, yearBack]
  rw [if_neg (not_not_intro valid)]
  simp only [read.separator, true_or, if_true, expect_cons, twoDigits_padded hour,
    twoDigits_padded minute, twoDigits_padded second, optionalFraction_micros (micros_lt t) [] notDigit]
  rw [if_neg inRange]
  simp only [offset]
  rw [if_neg (not_not_intro rfl), if_neg (by decide)]
  rfl

/-- An instant that is kept with a year of four digits can be read. -/
theorem read_stored {t : Instant} (h : t.Dated) : ∃ t', read (stored t) = .ok t' := by
  have inDay := secondOfDay_lt t
  have inMinute := shownSecond_le t
  have fraction := micros_lt t
  have number : t.date.toDayNumber = t.seconds.fdiv Instant.day := Date.toDayNumber_ofDayNumber _
  have bounds : -1000000 ≤ t.date.toDayNumber ∧ t.date.toDayNumber ≤ 3000000 := by
    rw [number]
    exact Date.dayNumber_bounds h
  have parts : t.date.Valid ∧ t.secondOfDay / 3600 < 24 ∧ t.secondOfDay / 60 % 60 < 60 ∧
      shownSecond t ≤ 60 := ⟨valid_date t, by omega, by omega, inMinute⟩
  -- day numbers of seven digits are far inside the calendar's range
  have representable : ∀ second nanos : Nat, second ≤ 60 → nanos < 2 * Instant.second →
      Instant.Representable ⟨t.date.toDayNumber * Instant.day + (t.secondOfDay / 3600 : Nat) * 3600 +
        (t.secondOfDay / 60 % 60 : Nat) * 60 + second - 0, nanos⟩ := by
    intro second nanos hs hn
    refine ⟨?_, ?_, hn⟩
    · simp only [Instant.firstSecond, Instant.day]
      omega
    · simp only [Instant.lastSecond, Instant.day]
      omega
  have short : t.nanos % Instant.second / 1000 * 1000 < Instant.second := by
    simp only [Instant.second] at fraction ⊢
    omega
  have plain : t.nanos % Instant.second / 1000 * 1000 < 2 * Instant.second :=
    Nat.lt_of_lt_of_le short (by decide)
  have leaping : t.nanos % Instant.second / 1000 * 1000 + Instant.second < 2 * Instant.second := by
    rw [Nat.two_mul]
    exact Nat.add_lt_add_right short _
  have assembled : ∃ t', assemble t.date (t.secondOfDay / 3600) (t.secondOfDay / 60 % 60) (shownSecond t)
      (t.nanos % Instant.second / 1000 * 1000) 0 = some t' := by
    rw [assemble, if_pos parts]
    by_cases leap : shownSecond t = 60
    · rw [if_pos leap]
      exact ⟨_, if_pos (representable 59 _ (by decide) leaping)⟩
    · rw [if_neg leap]
      exact ⟨_, if_pos (representable _ _ inMinute plain)⟩
  obtain ⟨t', ht'⟩ := assembled
  refine ⟨t', ?_⟩
  rw [read_stored_eq h, ht']

/-- The year 10000 is written with a sign and five digits, and cannot be read. -/
example : (read (stored ⟨253402300800, 0⟩)).toOption = none := by decide +kernel

/-- The same of texts as the store keeps them. -/
theorem read_storedText {t : Instant} (h : t.Dated) : ∃ t', read (storedText t).toList = .ok t' := by
  rw [storedText, String.toList_ofList]
  exact read_stored h

end Rfc3339

end Gatehouse.Time
