import Gatehouse.Text.Base64
import Gatehouse.Text.Decimal
import Gatehouse.Text.Octets

/-! # ASCII texts

A character of ASCII takes one octet, its own number. So the octets of an ASCII text are told character by
character, and there are as many of them as characters. Written numbers are such texts, and so are tokens: 32
octets take 43 characters, all of them letters, digits, hyphens and underscores.
-/

namespace Gatehouse.Text

/-! ## Classes of characters -/

/-- A character that takes a place on paper, which a space does too. -/
def IsPrintable (c : Char) : Prop :=
  0x20 ≤ c.toNat ∧ c.toNat ≤ 0x7E

/-- A character that is seen: one of ASCII, and neither a blank nor a control character. -/
def IsVisible (c : Char) : Prop :=
  0x21 ≤ c.toNat ∧ c.toNat ≤ 0x7E

/-- The characters of tokens and of the names of cookies. -/
def isSafe (c : Char) : Bool :=
  c.isAlphanum || c = '-' || c = '_'

instance (c : Char) : Decidable (IsPrintable c) := by
  unfold IsPrintable
  infer_instance

instance (c : Char) : Decidable (IsVisible c) := by
  unfold IsVisible
  infer_instance

section Characters

variable {c : Char}

theorem IsVisible.isPrintable (h : IsVisible c) : IsPrintable c := by
  unfold IsVisible at h
  unfold IsPrintable
  omega

theorem isPrintable_of_all {cs : List Char} (h : cs.all (fun c => decide (IsPrintable c)) = true) :
    ∀ c ∈ cs, IsPrintable c :=
  fun c hc => of_decide_eq_true (List.all_eq_true.mp h c hc)

theorem IsPrintable.ascii (h : IsPrintable c) : c.toNat < 0x80 :=
  Nat.lt_of_le_of_lt h.2 (by decide)

/-- Letters and digits of ASCII. -/
theorem isAlphanum_iff : c.isAlphanum = true ↔
    'A' ≤ c ∧ c ≤ 'Z' ∨ 'a' ≤ c ∧ c ≤ 'z' ∨ '0' ≤ c ∧ c ≤ '9' := by
  delta Char.isAlphanum Char.isAlpha Char.isUpper Char.isLower Char.isDigit
  simp only [Bool.or_eq_true, Bool.and_eq_true, decide_eq_true_eq, or_assoc]
  rfl

theorem isVisible_of_isAlphanum (h : c.isAlphanum = true) : IsVisible c := by
  have numbers : 65 ≤ c.toNat ∧ c.toNat ≤ 90 ∨ 97 ≤ c.toNat ∧ c.toNat ≤ 122 ∨ 48 ≤ c.toNat ∧ c.toNat ≤ 57 :=
    isAlphanum_iff.mp h
  unfold IsVisible
  omega

theorem isSafe_iff : isSafe c = true ↔
    'A' ≤ c ∧ c ≤ 'Z' ∨ 'a' ≤ c ∧ c ≤ 'z' ∨ '0' ≤ c ∧ c ≤ '9' ∨ c = '-' ∨ c = '_' := by
  simp only [isSafe, Bool.or_eq_true, decide_eq_true_eq, isAlphanum_iff, or_assoc]

theorem isVisible_of_isSafe (h : isSafe c = true) : IsVisible c := by
  simp only [isSafe, Bool.or_eq_true, decide_eq_true_eq] at h
  rcases h with (alphanum | rfl) | rfl
  · exact isVisible_of_isAlphanum alphanum
  all_goals decide

end Characters

variable {cs : List Char}

theorem not_mem_of_class {p : Char → Bool} (h : ∀ c ∈ cs, p c = true) {c : Char} (out : p c = false) : c ∉ cs := by
  intro among
  have inside := h c among
  rw [out] at inside
  cases inside

/-! ## Octets -/

theorem utf8Size_of_ascii {c : Char} (ascii : c.toNat < 0x80) : c.utf8Size = 1 :=
  Char.utf8Size_eq_one_iff.mpr (Nat.le_of_lt_succ ascii)

theorem octetCount_of_ascii (ascii : ∀ c ∈ cs, c.toNat < 0x80) : octetCount cs = cs.length := by
  induction cs with
  | nil => rfl
  | cons c cs ih =>
      have rest := ih fun d hd => ascii d (List.mem_cons_of_mem c hd)
      rw [octetCount_cons, utf8Size_of_ascii (ascii c List.mem_cons_self), rest, List.length_cons, Nat.add_comm]

/-- The octets of a text are the encoding of that text. -/
theorem ofUtf8?_utf8 (s : String) : ofUtf8? (utf8 s) = some s := by
  rw [ofUtf8?, utf8, Array.toArray_toList]
  exact dif_pos s.isValidUTF8

theorem utf8_ofList (cs : List Char) : utf8 (String.ofList cs) = cs.flatMap String.utf8EncodeChar := by
  rw [utf8, String.toUTF8_eq_toByteArray, String.toByteArray_ofList, List.utf8Encode, List.toList_data_toByteArray]

theorem utf8_of_ascii (ascii : ∀ c ∈ cs, c.toNat < 0x80) :
    utf8 (String.ofList cs) = cs.map fun c => UInt8.ofNat c.toNat := by
  rw [utf8_ofList]
  induction cs with
  | nil => rfl
  | cons c cs ih =>
      have rest := ih fun d hd => ascii d (List.mem_cons_of_mem c hd)
      have single := String.utf8EncodeChar_eq_singleton (utf8Size_of_ascii (ascii c List.mem_cons_self))
      rw [List.flatMap_cons, List.map_cons, rest, single]
      rfl

/-- The octets of ASCII texts stand in the order of the texts. -/
theorem utf8_lt_utf8_iff {ds : List Char} (ascii : ∀ c ∈ cs, c.toNat < 0x80) (ascii' : ∀ d ∈ ds, d.toNat < 0x80) :
    utf8 (String.ofList cs) < utf8 (String.ofList ds) ↔ cs < ds := by
  rw [utf8_of_ascii ascii, utf8_of_ascii ascii']
  induction cs generalizing ds with
  | nil => cases ds <;> simp
  | cons c cs ih =>
      cases ds with
      | nil => simp
      | cons d ds =>
          have rest := ih (fun x hx => ascii x (List.mem_cons_of_mem c hx))
            (fun x hx => ascii' x (List.mem_cons_of_mem d hx))
          have below : c.toNat < UInt8.size := Nat.lt_trans (ascii c List.mem_cons_self) (by decide)
          have below' : d.toNat < UInt8.size := Nat.lt_trans (ascii' d List.mem_cons_self) (by decide)
          have less : UInt8.ofNat c.toNat < UInt8.ofNat d.toNat ↔ c < d := UInt8.ofNat_lt_iff_lt below below'
          have same : UInt8.ofNat c.toNat = UInt8.ofNat d.toNat ↔ c = d := by
            rw [← UInt8.toNat_inj, UInt8.toNat_ofNat_of_lt' below, UInt8.toNat_ofNat_of_lt' below', Char.toNat_inj]
          simp only [List.map_cons, List.cons_lt_cons_iff, rest, less, same]

/-! ## Numbers and tokens -/

theorem isAlphanum_of_mem_digits {n : Nat} {c : Char} (h : c ∈ Decimal.digits n) : c.isAlphanum = true := by
  have digit : (c.isAlpha || c.isDigit) = true := by
    rw [Decimal.isDigit_of_mem_digits h, Bool.or_true]
  exact digit

theorem isSafe_of_mem_ofInt {n : Int} {c : Char} (h : c ∈ Decimal.ofInt n) : isSafe c = true := by
  have digit {c : Char} (hc : c ∈ Decimal.digits n.natAbs) : isSafe c = true := by
    rw [isSafe, isAlphanum_of_mem_digits hc]
    rfl
  rw [Decimal.ofInt] at h
  split at h
  · rcases List.mem_cons.mp h with rfl | hc
    · rfl
    · exact digit hc
  · exact digit h

namespace Base64

/-- Whatever the number, the character is one of the alphabet. -/
theorem isSafe_char (n : Nat) : isSafe (urlSafe.char n) = true := by
  have capital : ∀ m : Fin 26, isSafe (Char.ofNat (65 + m.val)) = true := by decide
  have small : ∀ m : Fin 52, 26 ≤ m.val → isSafe (Char.ofNat (71 + m.val)) = true := by decide
  have digit : ∀ m : Fin 62, 52 ≤ m.val → isSafe (Char.ofNat (m.val - 4)) = true := by decide
  rw [Alphabet.char]
  by_cases below : n < 26
  · rw [if_pos below]
    exact capital ⟨n, below⟩
  rw [if_neg below]
  by_cases below' : n < 52
  · rw [if_pos below']
    exact small ⟨n, below'⟩ (Nat.not_lt.mp below)
  rw [if_neg below']
  by_cases below'' : n < 62
  · rw [if_pos below'']
    exact digit ⟨n, below''⟩ (Nat.not_lt.mp below')
  rw [if_neg below'']
  split <;> rfl

theorem isSafe_of_mem_encode {octets : List UInt8} {c : Char} (h : c ∈ encode urlSafe octets) :
    isSafe c = true := by
  induction octets using encode.induct with
  | case1 => cases h
  | case2 x =>
      simp only [encode, List.mem_cons, List.not_mem_nil, or_false] at h
      rcases h with rfl | rfl <;> exact isSafe_char _
  | case3 x y =>
      simp only [encode, List.mem_cons, List.not_mem_nil, or_false] at h
      rcases h with rfl | rfl | rfl <;> exact isSafe_char _
  | case4 x y z rest ih =>
      simp only [encode, List.mem_cons] at h
      rcases h with rfl | rfl | rfl | rfl | h
      iterate 4 exact isSafe_char _
      exact ih h

/-- Four characters for three octets, the last group as many as it needs. -/
theorem length_encode (a : Alphabet) (octets : List UInt8) :
    (encode a octets).length = (4 * octets.length + 2) / 3 := by
  induction octets using encode.induct with
  | case1 => rfl
  | case2 x => simp [encode]
  | case3 x y => simp [encode]
  | case4 x y z rest ih =>
      simp only [encode, List.length_cons, ih]
      omega

end Base64

end Gatehouse.Text
