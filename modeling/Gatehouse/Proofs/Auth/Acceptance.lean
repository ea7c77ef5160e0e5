import Gatehouse.Auth.Login
import Gatehouse.Proofs.Text.Blanks

/-! # Accepted registrations

The characters of names take one octet each, so that the limit on a name is told in characters. An accepted
name has no at sign, and every accepted address has one, so no text is both. What is stored of a registration
is trimmed, and checking it a second time finds nothing new.
-/

namespace Gatehouse.Auth

open Gatehouse.Text

/-! ## The characters of names -/

variable {c : Char}

theorem isNameChar_eq (c : Char) : isNameChar c = (isSafe c || c = '.') :=
  rfl

theorem isNameChar_iff : isNameChar c = true ↔
    'A' ≤ c ∧ c ≤ 'Z' ∨ 'a' ≤ c ∧ c ≤ 'z' ∨ '0' ≤ c ∧ c ≤ '9' ∨ c = '.' ∨ c = '_' ∨ c = '-' := by
  rw [isNameChar_eq, Bool.or_eq_true, isSafe_iff, decide_eq_true_eq]
  tauto

theorem isVisible_of_isNameChar (h : isNameChar c = true) : IsVisible c := by
  rw [isNameChar_eq, Bool.or_eq_true, decide_eq_true_eq] at h
  rcases h with safe | rfl
  · exact isVisible_of_isSafe safe
  · decide

/-- Characters of names are counted as the octets that they take. -/
theorem octetCount_of_nameChars {cs : List Char} (h : ∀ c ∈ cs, isNameChar c = true) :
    octetCount cs = cs.length := by
  apply octetCount_of_ascii
  intro c hc
  exact (isVisible_of_isNameChar (h c hc)).isPrintable.ascii

theorem isEmail_iff {cs : List Char} :
    isEmail cs = true ↔ '@' ∈ cs ∧ cs.head? ≠ some '@' ∧ cs.getLast? ≠ some '@' := by
  simp only [isEmail, Bool.and_eq_true, List.contains_iff_mem, bne_iff_ne, and_assoc]

theorem Identifier.ofString_of_mem {s : String} (h : '@' ∈ s.toList) : ofString s = email s := by
  rw [ofString, List.contains_iff_mem.mpr h, if_pos rfl]

theorem Identifier.ofString_of_not_mem {s : String} (h : '@' ∉ s.toList) : ofString s = username s := by
  rw [ofString, if_neg (List.contains_iff_mem.not.mpr h)]

/-! ## The rules -/

namespace Registration

variable {r r' : Registration}

/-- The rules, without the order in which they are tried. -/
structure Acceptable (r : Registration) : Prop where
  username_ne : r.storedUsername ≠ ""
  octets_le : octetCount r.storedUsername.toList ≤ longestUsername
  nameChars : ∀ c ∈ r.storedUsername.toList, isNameChar c = true
  email : isEmail r.storedEmail.toList = true
  password_ne : r.password ≠ ""

theorem check_eq_ok_iff : r.check = .ok () ↔ r.Acceptable := by
  have rules : r.check = .ok () ↔ r.storedUsername ≠ "" ∧
      octetCount r.storedUsername.toList ≤ longestUsername ∧
      r.storedUsername.toList.all isNameChar = true ∧ isEmail r.storedEmail.toList = true ∧ r.password ≠ "" := by
    unfold check
    grind
  rw [rules, List.all_eq_true]
  exact ⟨fun ⟨name, octets, chars, email, password⟩ => ⟨name, octets, chars, email, password⟩,
    fun h => ⟨h.username_ne, h.octets_le, h.nameChars, h.email, h.password_ne⟩⟩

namespace Acceptable

theorem at_mem (h : r.Acceptable) : '@' ∈ r.storedEmail.toList :=
  (isEmail_iff.mp h.email).1

theorem at_not_mem (h : r.Acceptable) : '@' ∉ r.storedUsername.toList :=
  not_mem_of_class h.nameChars (by decide)

/-- The name of one registration is not the address of another. -/
theorem username_ne_email (h : r.Acceptable) (h' : r'.Acceptable) : r.storedUsername ≠ r'.storedEmail := by
  intro same
  exact h.at_not_mem (same ▸ h'.at_mem)

end Acceptable

theorem displayName_trimmed (r : Registration) : Trimmed r.displayName.toList := by
  have trimmed (s : String) : Trimmed (trim s).toList := by
    rw [trim, String.toList_ofList]
    exact trimmed_trimChars s.toList
  unfold displayName storedUsername
  split
  · exact trimmed r.username
  · exact trimmed r.name

theorem displayName_ne (h : r.storedUsername ≠ "") : r.displayName ≠ "" := by
  unfold displayName
  split
  · exact h
  · assumption

/-- The registration with what is stored of it in the place of what was given. -/
def normalized (r : Registration) : Registration :=
  { r with username := r.storedUsername, email := r.storedEmail }

@[simp] theorem normalized_storedUsername (r : Registration) : r.normalized.storedUsername = r.storedUsername :=
  trim_trim r.username

@[simp] theorem normalized_storedEmail (r : Registration) : r.normalized.storedEmail = r.storedEmail :=
  trim_trim r.email

@[simp] theorem normalized_displayName (r : Registration) : r.normalized.displayName = r.displayName := by
  simp only [displayName, normalized_storedUsername]
  rfl

theorem check_normalized (r : Registration) : r.normalized.check = r.check := by
  simp only [check, normalized_storedUsername, normalized_storedEmail]
  rfl

/-- What is accepted, and what holds of everything that is accepted. -/
theorem acceptance (r : Registration) :
    let username := trim r.username
    let email := trim r.email
    (r.check = .ok () ↔
      (1 ≤ username.toList.length ∧ username.toList.length ≤ 40 ∧
        ∀ c ∈ username.toList,
          'A' ≤ c ∧ c ≤ 'Z' ∨ 'a' ≤ c ∧ c ≤ 'z' ∨ '0' ≤ c ∧ c ≤ '9' ∨ c = '.' ∨ c = '_' ∨ c = '-') ∧
      ('@' ∈ email.toList ∧ email.toList.head? ≠ some '@' ∧ email.toList.getLast? ≠ some '@') ∧
      r.password ≠ "") ∧
    (r.check = .ok () →
      Identifier.ofString username = .username username ∧
      Identifier.ofString email = .email email ∧
      (∀ other : Registration, other.check = .ok () → username ≠ trim other.email) ∧
      (r.displayName ≠ "" ∧ Trimmed r.displayName.toList) ∧
      let again : Registration := { r with username := username, email := email }
      again.check = .ok () ∧ again.storedUsername = r.storedUsername ∧ again.storedEmail = r.storedEmail ∧
        again.displayName = r.displayName) := by
  intro username email
  constructor
  · simp only [← isNameChar_iff, ← isEmail_iff]
    have filled : r.storedUsername ≠ "" ↔ 1 ≤ username.toList.length := by
      rw [Nat.one_le_iff_ne_zero, ne_eq, ne_eq, List.length_eq_zero_iff, String.toList_eq_nil_iff]
      rfl
    rw [check_eq_ok_iff]
    constructor
    · intro h
      have counted : octetCount username.toList = username.toList.length := octetCount_of_nameChars h.nameChars
      exact ⟨⟨filled.mp h.username_ne, counted ▸ h.octets_le, h.nameChars⟩, h.email, h.password_ne⟩
    · rintro ⟨⟨some_chars, few_chars, chars⟩, address, password⟩
      have counted := octetCount_of_nameChars chars
      exact ⟨filled.mpr some_chars, counted.trans_le few_chars, chars, address, password⟩
  · intro accepted
    have h := check_eq_ok_iff.mp accepted
    have disjoint : ∀ other : Registration, other.check = .ok () → username ≠ trim other.email :=
      fun other accepted' => h.username_ne_email (check_eq_ok_iff.mp accepted')
    refine ⟨Identifier.ofString_of_not_mem h.at_not_mem, Identifier.ofString_of_mem h.at_mem, disjoint,
      ⟨displayName_ne h.username_ne, r.displayName_trimmed⟩, ?_⟩
    exact ⟨r.check_normalized.trans accepted, r.normalized_storedUsername, r.normalized_storedEmail,
      r.normalized_displayName⟩

/-- Blanks of every kind around the name and the address, and none in what is stored. -/
theorem acceptance_of_spaced :
    let r : Registration := ⟨"\u2003ada@example.org\t", " ada_l.1815\n", " \u3000 ", "engine", true⟩
    r.check = .ok () ∧ r.displayName = "ada_l.1815" ∧
      Identifier.ofString (trim r.email) = .email "ada@example.org" := by
  intro r
  have accepted : r.check = .ok () := by decide
  exact ⟨accepted, by decide, ((acceptance r).2 accepted).2.1.trans (by decide)⟩

end Registration

end Gatehouse.Auth
