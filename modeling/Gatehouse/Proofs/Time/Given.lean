import Gatehouse.Proofs.Results
import Gatehouse.Proofs.Time.Lenient

/-! # Instants that texts give

A text gives a leap second by the sixtieth second of a minute, and tells its distance from universal time in whole
minutes. So the leap seconds that are read end a minute, and with what is written and read back the lenient reader
gives exactly the instants of the calendar of which this is true.
-/

namespace Gatehouse.Time.Rfc3339

open Gatehouse.Text Decimal

variable {cs rest : List Char} {nanos : Nat} {distance : Int} {t : Instant}

/-- Nine places at most count, so a fraction is less than a second. -/
theorem nanoDigits_lt (h : nanoDigits cs = .ok (nanos, rest)) : nanos < Instant.second := by
  obtain ⟨ds, after, split⟩ : ∃ ds after, Decimal.span cs = (ds, after) := ⟨_, _, rfl⟩
  have digit : ∀ c ∈ ds.take 9, c.isDigit = true := by
    intro c hc
    have run : ds = cs.takeWhile Char.isDigit := (congrArg Prod.fst split).symm
    exact List.mem_takeWhile_imp (run ▸ List.mem_of_mem_take hc)
  have counted : nanos = value (ds.take 9) * Nat.pow 10 (9 - (ds.take 9).length) := by
    rw [nanoDigits, split] at h
    cases ds with
    | nil => cases after <;> cases h
    | cons d ds =>
        cases h
        rfl
  have places : (ds.take 9).length + (9 - (ds.take 9).length) = 9 :=
    Nat.add_sub_cancel' (List.length_take_le 9 ds)
  calc nanos = value (ds.take 9) * Nat.pow 10 (9 - (ds.take 9).length) := counted
    _ < Nat.pow 10 (ds.take 9).length * Nat.pow 10 (9 - (ds.take 9).length) :=
        Nat.mul_lt_mul_of_pos_right (value_lt digit) (Nat.pow_pos (by decide))
    _ = Instant.second := by rw [Nat.pow_eq, Nat.pow_eq, ← Nat.pow_add, places]

theorem optionalFraction_lt (h : optionalFraction cs = .ok (nanos, rest)) : nanos < Instant.second := by
  rw [optionalFraction.eq_def] at h
  split at h
  · exact nanoDigits_lt h
  · cases h
    decide

/-- A distance is told in hours and minutes. -/
theorem offset_emod {between : List Char → Except Fault (List Char)} (h : offset between cs = .ok (distance, rest)) :
    distance % 60 = 0 := by
  have minutes {sign : Int} {cs : List Char} (signed : offset.signed between sign cs = .ok (distance, rest)) :
      distance % 60 = 0 := by
    rw [offset.signed] at signed
    obtain ⟨-, signed⟩ := of_guard signed
    obtain ⟨⟨hours, cs'⟩, -, signed⟩ := exists_of_bind_eq_ok signed
    obtain ⟨cs', -, signed⟩ := exists_of_bind_eq_ok signed
    obtain ⟨-, signed⟩ := of_guard signed
    obtain ⟨⟨tens, cs'⟩, -, signed⟩ := exists_of_bind_eq_ok signed
    obtain ⟨⟨ones, cs'⟩, -, signed⟩ := exists_of_bind_eq_ok signed
    obtain ⟨-, signed⟩ := of_guard signed
    cases signed
    have whole : (hours * 3600 + (10 * tens + ones) * 60 : Int) = (hours * 60 + (10 * tens + ones)) * 60 := by omega
    rw [whole, ← Int.mul_assoc]
    exact Int.mul_emod_left _ 60
  rw [offset.eq_def] at h
  split at h
  · cases h
  · cases h
    rfl
  · cases h
    rfl
  split at h
  · exact minutes h
  split at h
  · exact minutes h
  · cases h

/-- Only a sixtieth second becomes a leap second, and whole minutes away it still is the last of its minute. -/
theorem assemble_sound {d : Date} {hour minute second : Nat}
    (h : assemble d hour minute second nanos distance = some t) (fraction : nanos < Instant.second)
    (minutes : distance % 60 = 0) : t.Representable ∧ t.Proper := by
  rw [assemble] at h
  split at h
  · split at h
    rename_i second' nanos' shown
    simp only [Option.ite_none_right_eq_some, Option.some.injEq] at h
    obtain ⟨representable, rfl⟩ := h
    refine ⟨representable, representable.2.2, fun leap => ?_⟩
    split at shown
    · cases shown
      simp only [Instant.day]
      omega
    · cases shown
      exact absurd leap (Nat.not_le.mpr fraction)
  · cases h

/-- The strict reader gives instants of the calendar, and leap seconds at the end of a minute only. -/
theorem read_sound (h : read cs = .ok t) : t.Representable ∧ t.Proper := by
  rw [read] at h
  obtain ⟨-, h⟩ := of_guard h
  obtain ⟨⟨y, cs⟩, -, h⟩ := exists_of_bind_eq_ok h
  obtain ⟨cs, -, h⟩ := exists_of_bind_eq_ok h
  obtain ⟨⟨month, cs⟩, -, h⟩ := exists_of_bind_eq_ok h
  obtain ⟨cs, -, h⟩ := exists_of_bind_eq_ok h
  obtain ⟨⟨day, cs⟩, -, h⟩ := exists_of_bind_eq_ok h
  obtain ⟨-, h⟩ := of_guard h
  obtain ⟨cs, -, h⟩ := exists_of_bind_eq_ok h
  obtain ⟨⟨hour, cs⟩, -, h⟩ := exists_of_bind_eq_ok h
  obtain ⟨cs, -, h⟩ := exists_of_bind_eq_ok h
  obtain ⟨⟨minute, cs⟩, -, h⟩ := exists_of_bind_eq_ok h
  obtain ⟨cs, -, h⟩ := exists_of_bind_eq_ok h
  obtain ⟨⟨second, cs⟩, -, h⟩ := exists_of_bind_eq_ok h
  obtain ⟨⟨nanos, cs⟩, fraction, h⟩ := exists_of_bind_eq_ok h
  obtain ⟨-, h⟩ := of_guard h
  obtain ⟨⟨distance, cs⟩, away, h⟩ := exists_of_bind_eq_ok h
  obtain ⟨-, h⟩ := of_guard h
  obtain ⟨-, h⟩ := of_guard h
  dsimp only at h
  split at h
  · rename_i made
    cases h
    exact assemble_sound made (optionalFraction_lt fraction) (offset_emod away)
  · cases h

theorem readLoose_sound (h : readLoose cs = some t) : t.Representable ∧ t.Proper := by
  rw [readLoose] at h
  obtain ⟨⟨y, cs⟩, -, h⟩ := Option.bind_eq_some_iff.mp h
  obtain ⟨cs, -, h⟩ := Option.bind_eq_some_iff.mp h
  obtain ⟨⟨month, cs⟩, -, h⟩ := Option.bind_eq_some_iff.mp h
  obtain ⟨cs, -, h⟩ := Option.bind_eq_some_iff.mp h
  obtain ⟨⟨day, cs⟩, -, h⟩ := Option.bind_eq_some_iff.mp h
  obtain ⟨cs, -, h⟩ := Option.bind_eq_some_iff.mp h
  obtain ⟨⟨hour, cs⟩, -, h⟩ := Option.bind_eq_some_iff.mp h
  obtain ⟨cs, -, h⟩ := Option.bind_eq_some_iff.mp h
  obtain ⟨⟨minute, cs⟩, -, h⟩ := Option.bind_eq_some_iff.mp h
  obtain ⟨cs, -, h⟩ := Option.bind_eq_some_iff.mp h
  obtain ⟨⟨second, cs⟩, -, h⟩ := Option.bind_eq_some_iff.mp h
  obtain ⟨⟨nanos, cs⟩, fraction, h⟩ := Option.bind_eq_some_iff.mp h
  have below := optionalFraction_lt (eq_ok_of_toOption fraction)
  dsimp only at h
  split at h
  · obtain ⟨⟨distance, cs⟩, away, h⟩ := Option.bind_eq_some_iff.mp h
    obtain ⟨-, h⟩ := of_guard? h
    obtain ⟨-, h⟩ := of_guard? h
    cases away
    exact assemble_sound h below rfl
  · obtain ⟨⟨distance, cs⟩, away, h⟩ := Option.bind_eq_some_iff.mp h
    obtain ⟨-, h⟩ := of_guard? h
    obtain ⟨-, h⟩ := of_guard? h
    exact assemble_sound h below (offset_emod (eq_ok_of_toOption away))

/-- The lenient reader gives every such instant, and no other. -/
theorem exists_readLoose_iff : (∃ cs, readLoose cs = some t) ↔ t.Representable ∧ t.Proper :=
  ⟨fun ⟨_, h⟩ => readLoose_sound h, fun h => ⟨write t, readLoose_write h.1 h.2⟩⟩

end Gatehouse.Time.Rfc3339
