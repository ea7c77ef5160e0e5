import Gatehouse.Proofs.Text.Ascii

/-! # Octets in Base64 and back

Every run of octets has one written form in the alphabet of stored hashes: reading what is written gives the octets,
and whatever can be read is what is written of the octets it stands for. So the lengths of the two forms follow from
each other.
-/

namespace Gatehouse.Text.Base64

/-! ## The alphabet -/

theorem value?_char {n : Nat} (h : n < 64) : standard.value? (standard.char n) = some n := by
  have all : ∀ m : Fin 64, standard.value? (standard.char m.val) = some m.val := by decide
  exact all ⟨n, h⟩

/-- A character of a number is the character that the number is written as. -/
theorem char_of_value? {c : Char} {n : Nat} (h : standard.value? c = some n) : n < 64 ∧ standard.char n = c := by
  have back {m : Nat} (same : m = c.toNat) : Char.ofNat m = c := by
    rw [same, Char.ofNat_toNat]
  rw [Alphabet.value?] at h
  split at h
  · rename_i upper
    have bounds : 65 ≤ c.toNat ∧ c.toNat ≤ 90 := by
      delta Char.isUpper at upper
      simpa [UInt32.le_iff_toNat_le] using upper
    cases h
    refine ⟨by omega, ?_⟩
    rw [Alphabet.char, if_pos (by omega)]
    exact back (by omega)
  split at h
  · rename_i lower
    have bounds : 97 ≤ c.toNat ∧ c.toNat ≤ 122 := by
      delta Char.isLower at lower
      simpa [UInt32.le_iff_toNat_le] using lower
    cases h
    refine ⟨by omega, ?_⟩
    rw [Alphabet.char, if_neg (by omega), if_pos (by omega)]
    exact back (by omega)
  split at h
  · rename_i digit
    have bounds : 48 ≤ c.toNat ∧ c.toNat ≤ 57 := by
      simpa [Char.isDigit, UInt32.le_iff_toNat_le] using digit
    cases h
    refine ⟨by omega, ?_⟩
    rw [Alphabet.char, if_neg (by omega), if_neg (by omega), if_pos (by omega)]
    exact back (by omega)
  split at h
  · rename_i plus
    cases h
    exact ⟨by decide, plus.symm⟩
  split at h
  · rename_i slash
    cases h
    exact ⟨by decide, slash.symm⟩
  · cases h

/-- Whatever the number, the character is a letter, a digit, a plus sign or a slash. -/
theorem char_cases (n : Nat) :
    (standard.char n).isAlphanum = true ∨ standard.char n = '+' ∨ standard.char n = '/' := by
  have below : ∀ m : Fin 62, (standard.char m.val).isAlphanum = true := by decide
  by_cases h : n < 62
  · exact Or.inl (below ⟨n, h⟩)
  · right
    rw [Alphabet.char, if_neg (by omega), if_neg (by omega), if_neg h]
    split
    · exact Or.inl rfl
    · exact Or.inr rfl

theorem of_mem_encode {octets : List UInt8} {c : Char} (h : c ∈ encode standard octets) :
    c.isAlphanum = true ∨ c = '+' ∨ c = '/' := by
  induction octets using encode.induct with
  | case1 => cases h
  | case2 x =>
      simp only [encode, List.mem_cons, List.not_mem_nil, or_false] at h
      rcases h with rfl | rfl <;> exact char_cases _
  | case3 x y =>
      simp only [encode, List.mem_cons, List.not_mem_nil, or_false] at h
      rcases h with rfl | rfl | rfl <;> exact char_cases _
  | case4 x y z rest ih =>
      simp only [encode, List.mem_cons] at h
      rcases h with rfl | rfl | rfl | rfl | h
      iterate 4 exact char_cases _
      exact ih h

/-! ## There and back -/

theorem decode_encode (octets : List UInt8) : decode standard (encode standard octets) = some octets := by
  have bound (x : UInt8) : x.toNat < 256 := x.toNat_lt
  have octet {n : Nat} {x : UInt8} (same : n = x.toNat) : UInt8.ofNat n = x := by
    rw [same, UInt8.ofNat_toNat]
  induction octets using encode.induct with
  | case1 => rfl
  | case2 x =>
      have hx := bound x
      have first : x.toNat / 4 * 4 + x.toNat % 4 * 16 / 16 = x.toNat := by omega
      have unused : x.toNat % 4 * 16 % 16 = 0 := by omega
      simp only [encode, decode, value?_char (n := x.toNat / 4) (by omega),
        value?_char (n := x.toNat % 4 * 16) (by omega), unused, octet first, bind, Option.bind, if_true]
  | case3 x y =>
      have hx := bound x
      have hy := bound y
      have first : x.toNat / 4 * 4 + (x.toNat % 4 * 16 + y.toNat / 16) / 16 = x.toNat := by omega
      have second : (x.toNat % 4 * 16 + y.toNat / 16) % 16 * 16 + y.toNat % 16 * 4 / 4 = y.toNat := by omega
      have unused : y.toNat % 16 * 4 % 4 = 0 := by omega
      simp only [encode, decode, value?_char (n := x.toNat / 4) (by omega),
        value?_char (n := x.toNat % 4 * 16 + y.toNat / 16) (by omega),
        value?_char (n := y.toNat % 16 * 4) (by omega), unused, octet first, octet second, bind, Option.bind,
        if_true]
  | case4 x y z rest ih =>
      have hx := bound x
      have hy := bound y
      have hz := bound z
      have first : x.toNat / 4 * 4 + (x.toNat % 4 * 16 + y.toNat / 16) / 16 = x.toNat := by omega
      have second : (x.toNat % 4 * 16 + y.toNat / 16) % 16 * 16 + (y.toNat % 16 * 4 + z.toNat / 64) / 4 =
          y.toNat := by omega
      have third : (y.toNat % 16 * 4 + z.toNat / 64) % 4 * 64 + z.toNat % 64 = z.toNat := by omega
      simp only [encode, decode, value?_char (n := x.toNat / 4) (by omega),
        value?_char (n := x.toNat % 4 * 16 + y.toNat / 16) (by omega),
        value?_char (n := y.toNat % 16 * 4 + z.toNat / 64) (by omega),
        value?_char (n := z.toNat % 64) (by omega), ih, octet first, octet second, octet third, bind, Option.bind]

/-- No octets are written in two ways. -/
theorem encode_of_decode {cs : List Char} {octets : List UInt8} (h : decode standard cs = some octets) :
    encode standard octets = cs := by
  have octet {n : Nat} (small : n < 256) : (UInt8.ofNat n).toNat = n := UInt8.toNat_ofNat_of_lt' small
  have char {n : Nat} {c : Char} {m : Nat} (value : standard.value? c = some m) (same : n = m) :
      standard.char n = c := same ▸ (char_of_value? value).2
  induction cs using decode.induct generalizing octets with
  | case1 =>
      cases h
      rfl
  | case2 => cases h
  | case3 c d =>
      simp only [decode, bind, Option.bind_eq_some_iff, Option.ite_none_right_eq_some, Option.some.injEq] at h
      obtain ⟨m, hm, n, hn, unused, rfl⟩ := h
      have bm := (char_of_value? hm).1
      have bn := (char_of_value? hn).1
      have ho : (UInt8.ofNat (m * 4 + n / 16)).toNat = m * 4 + n / 16 := octet (by omega)
      simp only [encode, ho, char hm (n := (m * 4 + n / 16) / 4) (by omega),
        char hn (n := (m * 4 + n / 16) % 4 * 16) (by omega)]
  | case4 c d e =>
      simp only [decode, bind, Option.bind_eq_some_iff, Option.ite_none_right_eq_some, Option.some.injEq] at h
      obtain ⟨m, hm, n, hn, k, hk, unused, rfl⟩ := h
      have bm := (char_of_value? hm).1
      have bn := (char_of_value? hn).1
      have bk := (char_of_value? hk).1
      have ho : (UInt8.ofNat (m * 4 + n / 16)).toNat = m * 4 + n / 16 := octet (by omega)
      have ho' : (UInt8.ofNat (n % 16 * 16 + k / 4)).toNat = n % 16 * 16 + k / 4 := octet (by omega)
      simp only [encode, ho, ho', char hm (n := (m * 4 + n / 16) / 4) (by omega),
        char hn (n := (m * 4 + n / 16) % 4 * 16 + (n % 16 * 16 + k / 4) / 16) (by omega),
        char hk (n := (n % 16 * 16 + k / 4) % 16 * 4) (by omega)]
  | case5 c d e f rest ih =>
      simp only [decode, bind, Option.bind_eq_some_iff, Option.some.injEq] at h
      obtain ⟨m, hm, n, hn, k, hk, l, hl, more, hmore, rfl⟩ := h
      have bm := (char_of_value? hm).1
      have bn := (char_of_value? hn).1
      have bk := (char_of_value? hk).1
      have bl := (char_of_value? hl).1
      have ho : (UInt8.ofNat (m * 4 + n / 16)).toNat = m * 4 + n / 16 := octet (by omega)
      have ho' : (UInt8.ofNat (n % 16 * 16 + k / 4)).toNat = n % 16 * 16 + k / 4 := octet (by omega)
      have ho'' : (UInt8.ofNat (k % 4 * 64 + l)).toNat = k % 4 * 64 + l := octet (by omega)
      simp only [encode, ho, ho', ho'', char hm (n := (m * 4 + n / 16) / 4) (by omega),
        char hn (n := (m * 4 + n / 16) % 4 * 16 + (n % 16 * 16 + k / 4) / 16) (by omega),
        char hk (n := (n % 16 * 16 + k / 4) % 16 * 4 + (k % 4 * 64 + l) / 64) (by omega),
        char hl (n := (k % 4 * 64 + l) % 64) (by omega), ih hmore]

/-- The length that is expected of a written text is the number of octets that it stands for. -/
theorem decodedLength_encode (octets : List UInt8) :
    decodedLength (encode standard octets).length = octets.length := by
  rw [length_encode, decodedLength]
  omega

end Gatehouse.Text.Base64
