import Gatehouse.Proofs.Time.Order

/-! # What is read back of a kept instant

The store keeps an instant to the microsecond. Its text does not depend on what is finer, and with a year of
four digits the strict reader finds the instant again, cut to the microsecond: a leap second too, which is
shown as the sixtieth of its minute.
-/

namespace Gatehouse.Time

open Gatehouse.Text

namespace Rfc3339

/-- A leap second stays one when it is cut. -/
theorem second_le_toMicros (t : Instant) : Instant.second ≤ t.toMicros.nanos ↔ Instant.second ≤ t.nanos := by
  simp only [Instant.toMicros, Instant.second]
  omega

/-- What is finer than a microsecond is not kept. -/
theorem stored_toMicros (t : Instant) : stored t.toMicros = stored t := by
  have fraction : t.nanos / 1000 * 1000 % Instant.second / 1000 = t.nanos % Instant.second / 1000 := by
    simp only [Instant.second]
    omega
  simp only [stored, writeWith, second_le_toMicros]
  simp only [Instant.toMicros, Instant.date, Instant.secondOfDay, fraction]

theorem storedText_toMicros (t : Instant) : storedText t.toMicros = storedText t := by
  rw [storedText, storedText, stored_toMicros]

/-- Year, month and day are put together with the clock again to the instant that they were taken from. -/
theorem assemble_parts {t : Instant} (representable : t.Representable) (proper : t.Proper) :
    assemble t.date (t.secondOfDay / 3600) (t.secondOfDay / 60 % 60) (shownSecond t)
      (t.nanos % Instant.second) 0 = some t := by
  have inDay := secondOfDay_lt t
  have seconds := seconds_eq t
  have number : t.date.toDayNumber = t.seconds.fdiv Instant.day := Date.toDayNumber_ofDayNumber _
  have parts : t.date.Valid ∧ t.secondOfDay / 3600 < 24 ∧ t.secondOfDay / 60 % 60 < 60 ∧
      shownSecond t ≤ 60 := ⟨valid_date t, by omega, by omega, shownSecond_le t⟩
  rw [assemble, if_pos parts, number]
  by_cases leap : Instant.second ≤ t.nanos
  · -- the second shown is the sixtieth, and the reader takes it for the one before with a longer fraction
    have last := proper.leap leap
    have below := proper.nanos_lt
    have shown : shownSecond t = 60 := by
      rw [shownSecond, if_pos leap]
      omega
    have same : (⟨t.seconds.fdiv Instant.day * Instant.day + (t.secondOfDay / 3600 : Nat) * 3600 +
        (t.secondOfDay / 60 % 60 : Nat) * 60 + (59 : Nat) - 0,
        t.nanos % Instant.second + Instant.second⟩ : Instant) = t := by
      simp only [Instant.ext_iff, Instant.second, Instant.day] at *
      omega
    rw [if_pos shown]
    simp only [same]
    exact if_pos representable
  · have shown : shownSecond t = t.secondOfDay % 60 := by
      rw [shownSecond, if_neg leap, Nat.add_zero]
    have ordinary : ¬ shownSecond t = 60 := by omega
    have same : (⟨t.seconds.fdiv Instant.day * Instant.day + (t.secondOfDay / 3600 : Nat) * 3600 +
        (t.secondOfDay / 60 % 60 : Nat) * 60 + (shownSecond t : Nat) - 0,
        t.nanos % Instant.second⟩ : Instant) = t := by
      simp only [Instant.ext_iff, Instant.second, Instant.day, shown] at *
      omega
    rw [if_neg ordinary]
    simp only [same]
    exact if_pos representable

theorem representable_toMicros {t : Instant} (dated : t.Dated) (proper : t.Proper) : t.toMicros.Representable := by
  have seconds := seconds_eq t
  have inDay := secondOfDay_lt t
  have bounds := Date.dayNumber_bounds dated
  refine ⟨?_, ?_, proper.toMicros.nanos_lt⟩
  · simp only [Instant.toMicros, Instant.firstSecond]
    omega
  · simp only [Instant.toMicros, Instant.lastSecond]
    omega

/-- The strict reader finds a kept instant again, cut to the microsecond. -/
theorem read_storedText_eq {t : Instant} (dated : t.Dated) (proper : t.Proper) :
    read (storedText t).toList = .ok t.toMicros := by
  have assembled := assemble_parts (representable_toMicros dated proper) proper.toMicros
  have second : shownSecond t.toMicros = shownSecond t := by
    simp only [shownSecond, second_le_toMicros]
    rfl
  have fraction : t.toMicros.nanos % Instant.second = t.nanos % Instant.second / 1000 * 1000 := by
    simp only [Instant.toMicros, Instant.second]
    omega
  rw [second, fraction] at assembled
  rw [storedText, String.toList_ofList, read_stored_eq dated]
  simp only [show t.date = t.toMicros.date from rfl, show t.secondOfDay = t.toMicros.secondOfDay from rfl, assembled]

end Rfc3339

end Gatehouse.Time
