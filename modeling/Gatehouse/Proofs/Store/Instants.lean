import Gatehouse.Proofs.Text.Ascii
import Gatehouse.Proofs.Time.ReadBack
import Gatehouse.Store.Row

/-! # Instants in columns

The text that a column holds of an instant has 27 characters, all of them visible ones of ASCII, as long as the
year has four digits. So whichever way texts are compared, character by character or octet by octet, they stand in
the order of the instants, cut to the microsecond, and a row that is read gives the instant back with the same cut.
-/

namespace Gatehouse

open Gatehouse.Text Gatehouse.Time

namespace Time.Rfc3339

open Decimal

variable {s t : Instant}

theorem isVisible_of_mem_stored (dated : t.Dated) {c : Char} (h : c ∈ stored t) : IsVisible c := by
  have digits {width n : Nat} (hc : c ∈ padded width n) : IsVisible c := by
    apply isVisible_of_isAlphanum
    rw [Char.isAlphanum, isDigit_of_mem_padded hc, Bool.or_true]
  rw [stored_eq dated] at h
  simp only [List.mem_append, List.mem_cons, List.not_mem_nil, or_false] at h
  rcases h with h | rfl | h | rfl | h | rfl | h | rfl | h | rfl | h | rfl | h | rfl
  all_goals first | exact digits h | decide

theorem ascii_of_mem_stored (dated : t.Dated) : ∀ c ∈ stored t, c.toNat < 0x80 :=
  fun _ h => (isVisible_of_mem_stored dated h).isPrintable.ascii

/-- Every part stands at its place, so the width is that of the parts and of what is between them. -/
theorem length_stored (dated : t.Dated) : (stored t).length = 27 := by
  have inDay := secondOfDay_lt t
  have valid := valid_date t
  have century : Nat.pow 10 2 = 100 := rfl
  have millennia : Nat.pow 10 4 = 10000 := rfl
  have year : t.date.year.toNat < Nat.pow 10 4 := by
    have last := dated.2
    omega
  have month : t.date.month < Nat.pow 10 2 := Nat.lt_of_le_of_lt valid.2.1 (by decide)
  have day : t.date.day < Nat.pow 10 2 := Nat.lt_of_le_of_lt (day_le t) (by decide)
  have hour : t.secondOfDay / 3600 < Nat.pow 10 2 := by omega
  have minute : t.secondOfDay / 60 % 60 < Nat.pow 10 2 := by omega
  have second : shownSecond t < Nat.pow 10 2 := Nat.lt_of_le_of_lt (shownSecond_le t) (by decide)
  rw [stored_eq dated]
  simp only [List.length_append, List.length_cons, List.length_nil, length_padded (by decide) year,
    length_padded (by decide) month, length_padded (by decide) day, length_padded (by decide) hour,
    length_padded (by decide) minute, length_padded (by decide) second, length_padded (by decide) (micros_lt t)]

theorem octets_le_octets_iff (dated : s.Dated) (dated' : t.Dated) :
    utf8 (storedText s) ≤ utf8 (storedText t) ↔ storedText s ≤ storedText t := by
  have less : utf8 (storedText t) < utf8 (storedText s) ↔ storedText t < storedText s := by
    rw [storedText, storedText, utf8_lt_utf8_iff (ascii_of_mem_stored dated') (ascii_of_mem_stored dated)]
    change _ ↔ (String.ofList (stored t)).toList < (String.ofList (stored s)).toList
    rw [String.toList_ofList, String.toList_ofList]
  rw [← List.not_lt, ← String.not_lt, less]

end Time.Rfc3339

namespace Store

open Time.Rfc3339

theorem instantOf_storedText {t : Instant} (dated : t.Dated) (proper : t.Proper) (column : String) :
    instantOf column (storedText t) = .ok t.toMicros := by
  rw [instantOf, read_storedText_eq dated proper]

/-- Width, order and what is read back, for all instants whose years have four digits. -/
theorem instants_in_columns {s t : Instant} (dated : s.Dated) (proper : s.Proper) (dated' : t.Dated)
    (proper' : t.Proper) :
    (storedText s).length = 27 ∧
      (storedText s ≤ storedText t ↔ s.toMicros ≤ t.toMicros) ∧
      (utf8 (storedText s) ≤ utf8 (storedText t) ↔ s.toMicros ≤ t.toMicros) ∧
      ∀ column, instantOf column (storedText s) = .ok s.toMicros ∧
        instantOf? column (some (storedText s)) = .ok (some s.toMicros) := by
  have order := storedText_le_iff dated dated' proper proper'
  refine ⟨?_, order, (octets_le_octets_iff dated dated').trans order, ?_⟩
  · rw [storedText, String.length_ofList, length_stored dated]
  · intro column
    have read := instantOf_storedText dated proper column
    refine ⟨read, ?_⟩
    rw [instantOf?, read]
    rfl

/-- The leap second at the end of 2016 and the start of 2017, which is later though its second is the first. -/
theorem instants_in_columns_leap :
    let s : Instant := ⟨1483228799, 1999999999⟩
    let t : Instant := ⟨1483228800, 0⟩
    storedText s = "2016-12-31T23:59:60.999999Z" ∧ storedText t = "2017-01-01T00:00:00.000000Z" ∧
      utf8 (storedText s) ≤ utf8 (storedText t) ∧
      instantOf "expired_at" (storedText s) = .ok ⟨1483228799, 1999999000⟩ := by
  intro s t
  have kept := instants_in_columns (s := s) (t := t) (by decide) ⟨by decide, by decide⟩ (by decide)
    ⟨by decide, by decide⟩
  have cut : s.toMicros = ⟨1483228799, 1999999000⟩ := by decide
  exact ⟨by decide +kernel, by decide +kernel, kept.2.2.1.mpr (by decide), cut ▸ (kept.2.2.2 "expired_at").1⟩

end Store

end Gatehouse
