import Gatehouse.Proofs.Time.Stored

/-! # The order of kept instants

The store compares instants as text. With four digits for the year every part of the text stands at its
place, so the text that is less is that of the earlier instant, up to what is finer than a microsecond. A
year outside is written with a sign, and every sign is less than every digit: such a text is less than any
with four digits, even that of a later instant.
-/

namespace Gatehouse.Time

open Gatehouse.Text

/-! ## Dates -/

namespace Date

/-- Earlier by year, then by month, then by day. -/
def Before (d e : Date) : Prop :=
  d.year < e.year ∨ d.year = e.year ∧ (d.month < e.month ∨ d.month = e.month ∧ d.day < e.day)

theorem Before.asymm {d e : Date} (h : d.Before e) : ¬ e.Before d := by
  unfold Before at h ⊢
  omega

theorem ofMarch_before {year year' inYear inYear' : Int} (h : 0 ≤ inYear ∧ inYear ≤ 365)
    (h' : 0 ≤ inYear' ∧ inYear' ≤ 365) (lt : year < year' ∨ year = year' ∧ inYear < inYear') :
    (ofMarch year inYear).Before (ofMarch year' inYear') := by
  obtain ⟨month, hm⟩ : ∃ m, m = (5 * inYear + 2) / 153 := ⟨_, rfl⟩
  obtain ⟨month', hm'⟩ : ∃ m, m = (5 * inYear' + 2) / 153 := ⟨_, rfl⟩
  simp only [Before, ofMarch, ← hm, ← hm']
  split <;> split <;> simp only <;> omega

/-- The parts of a day's count are its digits, so a lower count has a lower first part that differs. -/
theorem Counted.before
    {n cycle century period offset inYear n' cycle' century' period' offset' inYear' : Int}
    (h : Counted n cycle century period offset inYear)
    (h' : Counted n' cycle' century' period' offset' inYear') (lt : n < n') :
    cycle * 400 + century * 100 + period * 4 + offset <
        cycle' * 400 + century' * 100 + period' * 4 + offset' ∨
      cycle * 400 + century * 100 + period * 4 + offset =
        cycle' * 400 + century' * 100 + period' * 4 + offset' ∧ inYear < inYear' := by
  obtain ⟨sum, hc, hp, ho, hi, eo, ec⟩ := h
  obtain ⟨sum', hc', hp', ho', hi', eo', ec'⟩ := h'
  omega

theorem ofDayNumber_before {m n : Int} (h : m < n) : (ofDayNumber m).Before (ofDayNumber n) := by
  obtain ⟨_, _, _, _, _, counted, hm⟩ := ofDayNumber_eq m
  obtain ⟨_, _, _, _, _, counted', hn⟩ := ofDayNumber_eq n
  rw [hm, hn]
  exact ofMarch_before counted.inYear_bounds counted'.inYear_bounds (counted.before counted' h)

theorem ofDayNumber_before_iff {m n : Int} : (ofDayNumber m).Before (ofDayNumber n) ↔ m < n := by
  constructor
  · intro h
    apply Classical.byContradiction
    intro hn
    by_cases he : m = n
    · exact (he ▸ h).asymm (he ▸ h)
    · exact h.asymm (ofDayNumber_before (by omega))
  · exact ofDayNumber_before

theorem ofDayNumber_inj {m n : Int} : ofDayNumber m = ofDayNumber n ↔ m = n := by
  constructor
  · intro h
    rw [← toDayNumber_ofDayNumber m, h, toDayNumber_ofDayNumber]
  · intro h
    rw [h]

end Date

theorem Instant.toMicros_le_toMicros {s t : Instant} (h : s ≤ t) : s.toMicros ≤ t.toMicros := by
  rw [Instant.le_def] at h ⊢
  simp only [Instant.toMicros]
  omega

/-! ## Whole days -/

theorem Instant.addDays?_cases {t t' : Instant} {days : Int} (moved : t.addDays? days = some t') :
    (t.nanos < second ∨ days = 0) ∧ t' = ⟨t.seconds + days * day, t.nanos⟩ ∨
      second ≤ t.nanos ∧ 0 < days ∧ t' = ⟨t.seconds + days * day, t.nanos - second⟩ ∨
      second ≤ t.nanos ∧ days < 0 ∧ t' = ⟨t.seconds + 1 + days * day, t.nanos - second⟩ := by
  simp only [addDays?, Option.ite_none_right_eq_some, Option.some.injEq] at moved
  obtain ⟨-, rfl⟩ := moved
  split
  · rename_i ordinary
    exact Or.inl ⟨ordinary, rfl⟩
  · rename_i leap
    rw [not_or] at leap
    split
    · rename_i forward
      exact Or.inr (Or.inl ⟨Nat.not_lt.mp leap.1, forward, rfl⟩)
    · rename_i back
      exact Or.inr (Or.inr ⟨Nat.not_lt.mp leap.1, by omega, rfl⟩)

/-- A leap second left by whole days is no longer one, and the clock shows an ordinary second. -/
theorem Instant.Proper.addDays? {t t' : Instant} (h : t.Proper) {days : Int} (moved : t.addDays? days = some t') :
    t'.Proper := by
  obtain ⟨short, leap⟩ := h
  rcases Instant.addDays?_cases moved with ⟨-, rfl⟩ | ⟨late, -, rfl⟩ | ⟨late, -, rfl⟩
  · refine ⟨short, ?_⟩
    intro late
    have minute := leap late
    simp only [Instant.day]
    omega
  · constructor <;> simp only [Instant.second] at * <;> omega
  · constructor <;> simp only [Instant.second] at * <;> omega

theorem Instant.le_of_addDays? {t t' : Instant} {days : Int} (forward : 0 < days)
    (moved : t.addDays? days = some t') : t ≤ t' := by
  rw [Instant.le_def]
  rcases Instant.addDays?_cases moved with ⟨-, rfl⟩ | ⟨-, -, rfl⟩ | ⟨-, back, rfl⟩
  · left
    simp only [Instant.day]
    omega
  · left
    simp only [Instant.day]
    omega
  · omega

namespace Rfc3339

open Decimal

/-! ## Texts -/

/-- Part by part, from the year down to the microsecond. -/
theorem stored_lt_iff {s t : Instant} (hs : s.Dated) (ht : t.Dated) : stored s < stored t ↔
    s.date.Before t.date ∨ s.date = t.date ∧
      (s.secondOfDay / 3600 < t.secondOfDay / 3600 ∨ s.secondOfDay / 3600 = t.secondOfDay / 3600 ∧
        (s.secondOfDay / 60 % 60 < t.secondOfDay / 60 % 60 ∨
          s.secondOfDay / 60 % 60 = t.secondOfDay / 60 % 60 ∧
        (shownSecond s < shownSecond t ∨ shownSecond s = shownSecond t ∧
          s.nanos % Instant.second / 1000 < t.nanos % Instant.second / 1000))) := by
  have place : ∀ {width m n : Nat}, 0 < width → m < Nat.pow 10 width → n < Nat.pow 10 width →
      ∀ (c : Char) (x y : List Char),
        padded width m ++ c :: x < padded width n ++ c :: y ↔ m < n ∨ m = n ∧ x < y := by
    intro width m n hw hm hn c x y
    rw [padded_append_lt_iff hw hm hn, List.cons_lt_cons_self]
  have century : Nat.pow 10 2 = 100 := rfl
  have years : Nat.pow 10 4 = 10000 := rfl
  have hsy := hs.1
  have hsy' := hs.2
  have hty := ht.1
  have hty' := ht.2
  have hsm := (valid_date s).2.1
  have htm := (valid_date t).2.1
  have hsd := day_le s
  have htd := day_le t
  have hsh := secondOfDay_lt s
  have hth := secondOfDay_lt t
  have hss := shownSecond_le s
  have hts := shownSecond_le t
  rw [stored_eq hs, stored_eq ht, place (by decide) (by omega) (by omega),
    place (by decide) (by omega) (by omega), place (by decide) (by omega) (by omega),
    place (by decide) (by omega) (by omega), place (by decide) (by omega) (by omega),
    place (by decide) (by omega) (by omega), place (by decide) (micros_lt s) (micros_lt t)]
  have none_left : ¬ ([] : List Char) < [] := List.lt_irrefl []
  have same : s.date = t.date ↔ s.date.year = t.date.year ∧ s.date.month = t.date.month ∧
      s.date.day = t.date.day := by
    cases s.date
    cases t.date
    simp
  simp only [none_left, and_false, or_false, same, Date.Before]
  omega

/-- The text that is less is that of the earlier instant. -/
theorem stored_lt_stored_iff {s t : Instant} (hs : s.Dated) (ht : t.Dated) (ps : s.Proper)
    (pt : t.Proper) : stored s < stored t ↔ ¬ t.toMicros ≤ s.toMicros := by
  have hs' := seconds_eq s
  have ht' := seconds_eq t
  have hsh := secondOfDay_lt s
  have hth := secondOfDay_lt t
  obtain ⟨ns, ls⟩ := ps
  obtain ⟨nt, lt⟩ := pt
  rw [stored_lt_iff hs ht, Instant.date, Instant.date, Date.ofDayNumber_before_iff,
    Date.ofDayNumber_inj, Instant.le_def]
  simp only [Instant.toMicros, shownSecond, Instant.second] at ns ls nt lt ⊢
  -- a leap second is shown as the sixtieth, behind all others of its minute
  split <;> split <;> omega

theorem storedText_le_iff {s t : Instant} (hs : s.Dated) (ht : t.Dated) (ps : s.Proper)
    (pt : t.Proper) : storedText s ≤ storedText t ↔ s.toMicros ≤ t.toMicros := by
  rw [← String.not_lt]
  change ¬ (storedText t).toList < (storedText s).toList ↔ _
  rw [storedText, storedText, String.toList_ofList, String.toList_ofList,
    stored_lt_stored_iff ht hs pt ps, Classical.not_not]

/-! ## Years with a sign -/

theorem stored_starts_with_digit {t : Instant} (h : t.Dated) :
    ∃ c rest, stored t = c :: rest ∧ c.isDigit = true := by
  have width := le_length_padded 4 t.date.year.toNat
  rw [stored_eq h]
  cases hp : padded 4 t.date.year.toNat with
  | nil =>
      rw [hp] at width
      cases width
  | cons c digits =>
      have digit : c ∈ padded 4 t.date.year.toNat := by
        rw [hp]
        exact List.mem_cons_self
      exact ⟨c, _, rfl, isDigit_of_mem_padded digit⟩

theorem stored_starts_with_sign {t : Instant} (h : ¬ t.Dated) :
    ∃ c rest, stored t = c :: rest ∧ (c = '-' ∨ c = '+') := by
  have signed : year t.date.year =
      (if t.date.year < 0 then '-' else '+') :: padded 4 t.date.year.natAbs := if_neg h
  obtain ⟨rest, starts⟩ : ∃ rest, stored t = (if t.date.year < 0 then '-' else '+') :: rest := by
    simp only [stored, writeWith, date, signed, List.cons_append]
    exact ⟨_, rfl⟩
  refine ⟨_, rest, starts, ?_⟩
  split
  · exact Or.inl rfl
  · exact Or.inr rfl

/-- Before all digits stand both signs, so a year outside is less even where it is later. -/
theorem storedText_lt_of_not_dated {s t : Instant} (hs : ¬ s.Dated) (ht : t.Dated) :
    storedText s < storedText t := by
  obtain ⟨sign, rest, hsign, signed⟩ := stored_starts_with_sign hs
  obtain ⟨digit, rest', hdigit, isDigit⟩ := stored_starts_with_digit ht
  have zero_le : '0' ≤ digit := by
    rw [Char.isDigit, Bool.and_eq_true, decide_eq_true_eq] at isDigit
    exact isDigit.1
  have less : sign < digit := by
    have below : sign < '0' := by
      rcases signed with rfl | rfl <;> decide
    exact Nat.lt_of_lt_of_le below zero_le
  change (storedText s).toList < (storedText t).toList
  rw [storedText, storedText, String.toList_ofList, String.toList_ofList, hsign, hdigit]
  exact List.cons_lt_cons_iff.mpr (Or.inl less)

end Rfc3339

end Gatehouse.Time
