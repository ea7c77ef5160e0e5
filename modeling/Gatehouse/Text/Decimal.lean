/-!
# Decimal numbers in text

Whole numbers are written with the fewest decimal digits, or with zeros in front up to a width.
Readers take a run of ASCII digits and say what number it stands for.
-/

namespace Gatehouse.Text.Decimal

def digit (n : Nat) : Char :=
  Char.ofNat (48 + n)

def digitValue (c : Char) : Nat :=
  c.toNat - 48

def digits (n : Nat) : List Char :=
  if _h : n < 10 then
    [digit n]
  else
    digits (n / 10) ++ [digit (n % 10)]
  termination_by n
  decreasing_by omega

/-- The digits with zeros in front up to a width; a longer number keeps all its digits. -/
def padded (width n : Nat) : List Char :=
  List.replicate (width - (digits n).length) '0' ++ digits n

def ofInt (n : Int) : List Char :=
  if n < 0 then '-' :: digits n.natAbs else digits n.natAbs

def value (cs : List Char) : Nat :=
  cs.foldl (fun n c => 10 * n + digitValue c) 0

def span (cs : List Char) : List Char × List Char :=
  (cs.takeWhile Char.isDigit, cs.dropWhile Char.isDigit)

def nat? (cs : List Char) : Option Nat :=
  if cs ≠ [] ∧ cs.all Char.isDigit then some (value cs) else none

def int? : List Char → Option Int
  | '-' :: cs => (nat? cs).map fun n => -(n : Int)
  | '+' :: cs => (nat? cs).map fun n => (n : Int)
  | cs => (nat? cs).map fun n => (n : Int)

def unsigned? : List Char → Option Nat
  | '+' :: cs => nat? cs
  | cs => nat? cs

/-- Whether `significand · 10 ^ exponent` is below the bound at which 64-bit floating point stops. -/
def inRange (significand : Nat) (exponent : Int) : Bool :=
  let size := (digits significand).length + exponent
  if significand = 0 ∨ size ≤ 308 then true
  else if 310 < size then false
  else
    let bound := Nat.pow 2 1024 - Nat.pow 2 970
    if 0 ≤ exponent then significand * Nat.pow 10 exponent.toNat < bound
    else significand < bound * Nat.pow 10 (-exponent).toNat

def text (n : Nat) : String :=
  String.ofList (digits n)

def intText (n : Int) : String :=
  String.ofList (ofInt n)

theorem digitValue_digit {n : Nat} (h : n < 10) : digitValue (digit n) = n := by
  have : ∀ m : Fin 10, digitValue (digit m.val) = m.val := by decide
  exact this ⟨n, h⟩

theorem isDigit_digit {n : Nat} (h : n < 10) : (digit n).isDigit = true := by
  have : ∀ m : Fin 10, (digit m.val).isDigit = true := by decide
  exact this ⟨n, h⟩

theorem value_append_digit (cs : List Char) (c : Char) :
    value (cs ++ [c]) = 10 * value cs + digitValue c := by
  simp [value]

@[simp] theorem value_digits (n : Nat) : value (digits n) = n := by
  induction n using Nat.strongRecOn with
  | _ n ih =>
    unfold digits
    split
    · next h => simp [value, digitValue_digit h]
    · next h =>
      rw [value_append_digit, ih (n / 10) (by omega), digitValue_digit (by omega)]
      omega

theorem digits_ne_nil (n : Nat) : digits n ≠ [] := by
  unfold digits
  split <;> simp

theorem isDigit_of_mem_digits {n : Nat} {c : Char} (h : c ∈ digits n) : c.isDigit = true := by
  induction n using Nat.strongRecOn with
  | _ n ih =>
    unfold digits at h
    split at h
    · next hn => simp only [List.mem_singleton] at h; exact h ▸ isDigit_digit hn
    · next hn =>
      simp only [List.mem_append, List.mem_singleton] at h
      rcases h with h | h
      · exact ih (n / 10) (by omega) h
      · exact h ▸ isDigit_digit (by omega)

@[simp] theorem nat?_digits (n : Nat) : nat? (digits n) = some n := by
  have hall : (digits n).all Char.isDigit = true :=
    List.all_eq_true.mpr fun _ hc => isDigit_of_mem_digits hc
  simp [nat?, digits_ne_nil, hall]

end Gatehouse.Text.Decimal
