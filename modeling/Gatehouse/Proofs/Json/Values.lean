import Gatehouse.Json.Reader
import Gatehouse.Json.Value
import Gatehouse.Proofs.Results
import Gatehouse.Proofs.Text.Digits
import Gatehouse.Proofs.Time.Lenient

/-! # Written values are read back

A value is written without blanks, and its first character tells its kind. The reader of that kind takes the text of
the value from the front of a longer one: what follows a value in an array or an object, a comma or a closing bracket,
belongs to no value, so nothing of it is taken for a digit, a point or an exponent. In a string every character that
cannot stand for itself is escaped, and what the escape stands for is the character.
-/

namespace Gatehouse.Json

open Gatehouse.Text Gatehouse.Time

variable {α β : Type} {rest : List Char}

/-! ## What may follow a value -/

/-- The text has ended, or goes on with a comma or a closing bracket. -/
def Ended (rest : List Char) : Prop :=
  ∀ c ∈ rest.head?, c = ',' ∨ c = ']' ∨ c = closeBrace

/-- The reader takes the text of a value for `a`, whatever may follow. -/
def Reads (read : Reader α) (j : Json) (a : α) : Prop :=
  ∀ rest, Ended rest → read (j.render ++ rest) = .ok (a, rest)

theorem ended_nil : Ended [] := by
  rintro _ ⟨⟩

theorem Reads.readText {read : Reader α} {j : Json} {a : α} (h : Reads read j a) :
    readText read j.text.toList = .ok a := by
  have whole := h [] ended_nil
  rw [List.append_nil] at whole
  rw [Json.readText, Json.text, String.toList_ofList, whole]
  rfl

theorem skipSpace_cons {c : Char} (h : isSpace c = false) (cs : List Char) : skipSpace (c :: cs) = c :: cs :=
  List.dropWhile_cons_of_neg (by simp [h])

/-! ## Strings -/

theorem hexValue?_hexDigit {n : Nat} (h : n < 16) : hexValue? (hexDigit n) = some n := by
  have all : ∀ m : Fin 16, hexValue? (hexDigit m.val) = some m.val := by decide
  exact all ⟨n, h⟩

theorem stringBody_escaped {c : Char} {cs after : List Char} (h : escaped cs = .ok (c, after)) :
    stringBody ('\\' :: cs) = (stringBody after).map fun (s, r) => (c :: s, r) := by
  rw [stringBody]
  split
  · rename_i fault
    rw [h] at fault
    cases fault
  · rename_i d after' same
    rw [h] at same
    cases same
    rfl

/-- A control character is escaped by its number. -/
theorem escaped_control {c : Char} (h : c.toNat < 32) :
    escaped ('u' :: '0' :: '0' :: hexDigit (c.toNat / 16) :: hexDigit (c.toNat % 16) :: rest) = .ok (c, rest) := by
  have high := hexValue?_hexDigit (n := c.toNat / 16) (by omega)
  have low := hexValue?_hexDigit (n := c.toNat % 16) (by omega)
  have zero : hexValue? '0' = some 0 := by decide
  have same : ((0 * 16 + 0) * 16 + c.toNat / 16) * 16 + c.toNat % 16 = c.toNat := by omega
  have four : fourHex ('0' :: '0' :: hexDigit (c.toNat / 16) :: hexDigit (c.toNat % 16) :: rest) =
      .ok (c.toNat, rest) := by
    simp only [fourHex, fourHex?, zero, high, low, bind, Option.bind, same]
  have single : isTrailing c.toNat = false ∧ isLeading c.toNat = false := by
    simp only [isTrailing, isLeading, Bool.and_eq_false_iff, decide_eq_false_iff_not]
    omega
  rw [escaped, four, ok_bind]
  simp only [single, Bool.false_eq_true, if_false, Char.ofNat_toNat]
  rfl

theorem stringBody_escape (c : Char) (cs : List Char) :
    stringBody (escape c ++ cs) = (stringBody cs).map fun (s, r) => (c :: s, r) := by
  have short {n : Nat} {letter : Char} (number : c.toNat = n)
      (h : escaped (letter :: cs) = .ok (Char.ofNat n, cs)) :
      stringBody ('\\' :: letter :: cs) = (stringBody cs).map fun (s, r) => (c :: s, r) := by
    rw [stringBody_escaped h, ← number, Char.ofNat_toNat]
  rw [escape]
  split
  · rename_i quote
    rw [quote]
    exact stringBody_escaped rfl
  split
  · rename_i backslash
    rw [backslash]
    exact stringBody_escaped rfl
  iterate 5
    split
    · rename_i number
      exact short number rfl
  split
  · rename_i control
    exact stringBody_escaped (escaped_control control)
  · rename_i not_quote not_backslash _ _ _ _ _ plain
    rw [List.cons_append, List.nil_append, stringBody, if_neg plain]
    · exact not_quote
    · exact not_backslash

theorem stringBody_flatMap_escape (s : List Char) : stringBody (s.flatMap escape ++ '"' :: rest) = .ok (s, rest) := by
  induction s with
  | nil => rw [List.flatMap_nil, List.nil_append, stringBody]
  | cons c s ih =>
      rw [List.flatMap_cons, List.append_assoc, stringBody_escape, ih]
      rfl

theorem quoted_append (s : String) : quoted s ++ rest = '"' :: (s.toList.flatMap escape ++ '"' :: rest) := by
  rw [quoted, List.append_assoc, List.cons_append]
  rfl

theorem string_quoted (s : String) : string (quoted s ++ rest) = .ok (s, rest) := by
  rw [quoted_append, string, skipSpace_cons (by decide)]
  simp only [stringBody_flatMap_escape, Except.map, String.ofList_toList]

theorem reads_string (s : String) : Reads string (.str s) s := by
  intro rest _
  rw [render]
  exact string_quoted s

/-- One of some names is written as a string. -/
theorem reads_oneOf {names : List (String × α)} {name : String} {a : α} (h : names.lookup name = some a) :
    Reads (oneOf names) (.str name) a := by
  intro rest _
  have named : oneOf.named names (quoted name ++ rest) = .ok (a, rest) := by
    rw [oneOf.named, string_quoted, ok_bind]
    simp only [h]
    rfl
  rw [quoted_append] at named
  rw [render, quoted_append, oneOf, skipSpace_cons (by decide)]
  simp only [if_true, named]

theorem reads_instant {t : Instant} (representable : t.Representable) (proper : t.Proper) :
    Reads instant (.str (Rfc3339.text t)) t := by
  intro rest ended
  have text : (Rfc3339.text t).toList = Rfc3339.write t := String.toList_ofList
  rw [instant, reads_string (Rfc3339.text t) rest ended, ok_bind]
  simp only [text, Rfc3339.readLoose_write representable proper]
  rfl

/-! ## Truth values and numbers -/

theorem reads_boolean (b : Bool) : Reads boolean (.bool b) b := by
  intro rest _
  cases b
  · rw [render, List.cons_append, boolean, skipSpace_cons (by decide)]
    rfl
  · rw [render, List.cons_append, boolean, skipSpace_cons (by decide)]
    rfl

theorem Ended.not_digit (h : Ended rest) : ∀ c ∈ rest.head?, c.isDigit = false := by
  intro c hc
  rcases h c hc with rfl | rfl | rfl <;> decide

theorem Ended.optionalFraction_eq (h : Ended rest) : optionalFraction rest = .ok (none, rest) := by
  cases rest with
  | nil => rfl
  | cons c rest => rcases h c rfl with rfl | rfl | rfl <;> rfl

theorem Ended.optionalExponent_eq (h : Ended rest) : optionalExponent rest = .ok (none, rest) := by
  cases rest with
  | nil => rfl
  | cons c rest => rcases h c rfl with rfl | rfl | rfl <;> rfl

theorem wholeDigits_digits (n : Nat) (ended : Ended rest) :
    wholeDigits (Decimal.digits n ++ rest) = .ok (Decimal.digits n, rest) := by
  have span : Decimal.span (Decimal.digits n ++ rest) = (Decimal.digits n, rest) :=
    Decimal.span_append_of_head? (fun _ => Decimal.isDigit_of_mem_digits) ended.not_digit
  obtain ⟨d, ds, digits, digit⟩ := Decimal.exists_digits_eq n
  rw [digits, List.cons_append] at span ⊢
  by_cases zero : d = '0'
  · -- a zero in front is the whole number
    subst zero
    have alone : n = 0 := Decimal.head?_digits (by rw [digits]; rfl)
    rw [alone, Decimal.digits_of_lt (by decide)] at digits
    have none : ds = [] := (List.cons.inj digits).2.symm
    subst none
    cases rest with
    | nil => rfl
    | cons c rest =>
        have stops : ¬ c.isDigit = true := by simp [ended.not_digit c rfl]
        exact if_neg stops
  · rw [wholeDigits]
    · rw [if_pos digit, span]
    · exact zero

theorem inRange_zero {n : Nat} (h : n < Nat.pow 10 20) : Decimal.inRange n 0 = true := by
  have length := Decimal.length_digits_le (by decide) h
  have size : n = 0 ∨ ((Decimal.digits n).length : Int) + 0 ≤ 308 := by omega
  simp only [Decimal.inRange, if_pos size]

theorem unsignedNumber_digits {negative : Bool} {n : Nat} (h : n < Nat.pow 10 20)
    (signed : negative = true → n ≠ 0) (ended : Ended rest) :
    unsignedNumber negative (Decimal.digits n ++ rest) =
      .ok (.whole (if negative then -(n : Int) else n), rest) := by
  have value : Decimal.value (Decimal.digits n ++ (none : Option (List Char)).getD []) = n := by
    rw [Option.getD_none, List.append_nil, Decimal.value_digits]
  have inRange : Decimal.inRange n ((none : Option Int).getD 0 - (((none : Option (List Char)).getD []).length : Int)) =
      true := inRange_zero h
  rw [unsignedNumber, wholeDigits_digits n ended, ok_bind]
  have whole : ¬ ((none : Option (List Char)).isSome = true ∨ (none : Option Int).isSome = true ∨
      negative = true ∧ n = 0) := by
    rintro (fraction | exponent | ⟨minus, zero⟩)
    · cases fraction
    · cases exponent
    · exact signed minus zero
  simp only [ended.optionalFraction_eq, ended.optionalExponent_eq, ok_bind, value, inRange]
  rw [if_neg (not_not_intro trivial), if_neg whole]
  rfl

theorem number_ofInt {n : Int} (small : n.natAbs < Nat.pow 10 20) (ended : Ended rest) :
    number (Decimal.ofInt n ++ rest) = .ok (.whole n, rest) := by
  rw [Decimal.ofInt]
  split
  · rename_i negative
    have same : -(n.natAbs : Int) = n := by omega
    rw [List.cons_append, number, unsignedNumber_digits small (fun _ => by omega) ended, if_pos rfl, same]
  · rename_i positive
    have same : (n.natAbs : Int) = n := by omega
    have read := unsignedNumber_digits small (fun minus => absurd minus Bool.false_ne_true) ended
    obtain ⟨d, ds, digits, digit⟩ := Decimal.exists_digits_eq n.natAbs
    rw [digits, List.cons_append] at read ⊢
    rw [number]
    · rw [read, if_neg (by decide), same]
    · intro _ minus
      obtain ⟨rfl, -⟩ := List.cons.inj minus
      cases digit

theorem exists_ofInt_eq (n : Int) : ∃ c cs, Decimal.ofInt n = c :: cs ∧ (c = '-' ∨ c.isDigit = true) := by
  rw [Decimal.ofInt]
  split
  · exact ⟨'-', _, rfl, Or.inl rfl⟩
  · obtain ⟨d, ds, digits, digit⟩ := Decimal.exists_digits_eq n.natAbs
    exact ⟨d, ds, digits, Or.inr digit⟩

theorem isSpace_of_isDigit {c : Char} (h : c.isDigit = true) : isSpace c = false := by
  apply Bool.eq_false_iff.mpr
  intro space
  simp only [isSpace, Bool.or_eq_true, decide_eq_true_eq] at space
  rcases space with ((rfl | rfl) | rfl) | rfl <;> cases h

theorem reads_integer {low high n : Int} (least : low ≤ n) (most : n ≤ high) (small : n.natAbs < Nat.pow 10 20) :
    Reads (integer low high) (.int n) n := by
  intro rest ended
  have read := number_ofInt small ended
  obtain ⟨c, cs, text, first⟩ := exists_ofInt_eq n
  have stays : isSpace c = false := by
    rcases first with rfl | digit
    · rfl
    · exact isSpace_of_isDigit digit
  rw [text, List.cons_append] at read
  rw [render, text, List.cons_append, integer, skipSpace_cons stays]
  simp only [if_pos first, read, ok_bind, if_pos (And.intro least most)]
  rfl

theorem reads_int64 {n : Int} (least : -9223372036854775808 ≤ n) (most : n ≤ 9223372036854775807) :
    Reads int64 (.int n) n := by
  have bound : Nat.pow 10 20 = 100000000000000000000 := rfl
  exact reads_integer least most (by omega)

theorem reads_unsigned {bits n : Nat} (few : bits ≤ 64) (h : n < Nat.pow 2 bits) :
    Reads (unsigned bits) (.int n) n := by
  intro rest ended
  have widest : Nat.pow 2 bits ≤ 18446744073709551616 := Nat.pow_le_pow_right (n := 2) (by decide) few
  have bound : Nat.pow 10 20 = 100000000000000000000 := rfl
  have read : integer 0 (Nat.pow 2 bits - 1) ((Json.int n).render ++ rest) = .ok (n, rest) :=
    reads_integer (by omega) (by omega) (by omega) rest ended
  rw [unsigned, read]
  rfl

/-! ## Missing values and lists -/

/-- The first character of a value is no blank and closes no array, and only null starts as null does. -/
theorem exists_render_eq (j : Json) :
    ∃ c cs, j.render = c :: cs ∧ isSpace c = false ∧ c ≠ ']' ∧ (j ≠ .null → c ≠ 'n') := by
  cases j with
  | null => exact ⟨'n', _, rfl, rfl, by decide, fun value => absurd rfl value⟩
  | bool b =>
      cases b
      · exact ⟨'f', _, rfl, rfl, by decide, fun _ => by decide⟩
      · exact ⟨'t', _, rfl, rfl, by decide, fun _ => by decide⟩
  | int n =>
      obtain ⟨c, cs, text, rfl | digit⟩ := exists_ofInt_eq n
      · exact ⟨'-', cs, text, rfl, by decide, fun _ => by decide⟩
      · refine ⟨c, cs, text, isSpace_of_isDigit digit, ?_, fun _ => ?_⟩
        · rintro rfl
          cases digit
        · rintro rfl
          cases digit
  | str s => exact ⟨'"', _, rfl, rfl, by decide, fun _ => by decide⟩
  | arr items =>
      cases items with
      | nil => exact ⟨'[', _, rfl, rfl, by decide, fun _ => by decide⟩
      | cons j items => exact ⟨'[', _, rfl, rfl, by decide, fun _ => by decide⟩
  | obj members =>
      rcases members with - | ⟨⟨name, j⟩, members⟩
      · exact ⟨openBrace, _, rfl, rfl, by decide, fun _ => by decide⟩
      · exact ⟨openBrace, _, rfl, rfl, by decide, fun _ => by decide⟩

theorem reads_none (read : Reader α) : Reads (nullable read) .null none := by
  intro rest _
  rfl

theorem Reads.some {read : Reader α} {j : Json} {a : α} (h : Reads read j a) (value : j ≠ .null) :
    Reads (nullable read) j (some a) := by
  intro rest ended
  have taken := h rest ended
  obtain ⟨c, cs, text, stays, -, first⟩ := exists_render_eq j
  rw [text, List.cons_append] at taken ⊢
  rw [nullable, skipSpace_cons stays]
  split
  · rename_i null
    exact absurd (List.cons.inj null).1 (first value)
  · rw [taken]
    rfl

theorem reads_ofOption {read : Reader α} {f : α → Json} {a? : Option α} (h : ∀ a ∈ a?, Reads read (f a) a)
    (value : ∀ a, f a ≠ .null) : Reads (nullable read) (ofOption f a?) a? := by
  cases a? with
  | none => exact reads_none read
  | some a => exact (h a rfl).some (value a)

theorem ended_renderItems (items : List Json) (rest : List Char) : Ended (renderItems items ++ rest) := by
  cases items <;> rintro _ ⟨⟩ <;> simp

theorem length_lt_renderItems (items : List Json) : items.length < (renderItems items).length := by
  induction items with
  | nil => exact Nat.zero_lt_one
  | cons j items ih =>
      simp only [renderItems, List.length_cons, List.length_append, List.cons_append]
      omega

section Items

variable {read : Reader α} {f : α → Json} {items : List α}

theorem item_render {fuel : Nat} {a : α} {as : List α} {cs : List Char} (h : Reads read (f a) a) (ended : Ended cs)
    (after : itemsFrom read fuel false cs = .ok (as, rest)) :
    itemsFrom.item read fuel ((f a).render ++ cs) = .ok (a :: as, rest) := by
  rw [itemsFrom.item, h cs ended, ok_bind]
  simp only [after, ok_bind]
  rfl

theorem itemsFrom_first {fuel : Nat} {c : Char} {cs : List Char} (stays : isSpace c = false) (bracket : c ≠ ']') :
    itemsFrom read (fuel + 1) true (c :: cs) = itemsFrom.item read fuel (c :: cs) := by
  simp only [itemsFrom, skipSpace_cons stays, if_true]

theorem itemsFrom_next {fuel : Nat} {c : Char} {cs : List Char} (stays : isSpace c = false) (bracket : c ≠ ']') :
    itemsFrom read (fuel + 1) false (',' :: c :: cs) = itemsFrom.item read fuel (c :: cs) := by
  have comma : skipSpace (',' :: c :: cs) = ',' :: c :: cs := rfl
  rw [itemsFrom, comma]
  split
  · rename_i none
    cases none
  · rename_i closed
    exact absurd (List.cons.inj closed).1 (by decide)
  · rename_i separated
    obtain ⟨rfl, rfl⟩ := List.cons.inj separated
    simp only [skipSpace_cons stays, Bool.false_eq_true, if_false, if_true]
    split
    · rename_i none
      cases none
    · rename_i closed
      exact absurd (List.cons.inj closed).1 bracket
    · rfl

theorem itemsFrom_renderItems (h : ∀ a ∈ items, Reads read (f a) a) {fuel : Nat} (enough : items.length < fuel) :
    itemsFrom read fuel false (renderItems (items.map f) ++ rest) = .ok (items, rest) := by
  induction items generalizing fuel with
  | nil =>
      obtain ⟨fuel, rfl⟩ : ∃ k, fuel = k + 1 := ⟨fuel - 1, by omega⟩
      have bracket : skipSpace (']' :: rest) = ']' :: rest := rfl
      simp only [List.map_nil, renderItems, List.cons_append, List.nil_append, itemsFrom, bracket]
  | cons a items ih =>
      rw [List.length_cons] at enough
      obtain ⟨fuel, rfl⟩ : ∃ k, fuel = k + 1 := ⟨fuel - 1, by omega⟩
      have after := ih (fun b hb => h b (List.mem_cons_of_mem a hb)) (Nat.lt_of_succ_lt_succ enough)
      have item := item_render (h a List.mem_cons_self) (ended_renderItems (items.map f) rest) after
      obtain ⟨c, cs, text, stays, bracket, -⟩ := exists_render_eq (f a)
      rw [List.map_cons, renderItems, List.cons_append, List.cons_append, List.append_assoc]
      rw [text, List.cons_append] at item ⊢
      rw [itemsFrom_next stays bracket, item]

theorem reads_list (h : ∀ a ∈ items, Reads read (f a) a) : Reads (list read) (.arr (items.map f)) items := by
  intro rest ended
  cases items with
  | nil =>
      have opened : skipSpace ('[' :: ']' :: rest) = '[' :: ']' :: rest := rfl
      have closed : skipSpace (']' :: rest) = ']' :: rest := rfl
      simp only [List.map_nil, render, List.cons_append, List.nil_append, list, opened, itemsFrom, closed]
  | cons a items =>
      have shorter := length_lt_renderItems (items.map f)
      have opened (cs : List Char) : list read ('[' :: cs) = itemsFrom read (cs.length + 1) true cs := rfl
      obtain ⟨c, cs, text, stays, bracket, -⟩ := exists_render_eq (f a)
      have enough : items.length < (c :: (cs ++ (renderItems (items.map f) ++ rest))).length := by
        simp only [List.length_map, List.length_cons, List.length_append] at shorter ⊢
        omega
      have after : itemsFrom read _ false (renderItems (items.map f) ++ rest) = .ok (items, rest) :=
        itemsFrom_renderItems (fun b hb => h b (List.mem_cons_of_mem a hb)) enough
      have item := item_render (h a List.mem_cons_self) (ended_renderItems (items.map f) rest) after
      rw [List.map_cons, render, List.cons_append, List.cons_append, List.append_assoc]
      rw [text, List.cons_append] at item ⊢
      rw [opened, itemsFrom_first stays bracket, item]

end Items

end Gatehouse.Json
