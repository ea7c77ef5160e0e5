/-!
# Text in octets

The octets that a text takes when it is encoded, their number, and the characters that are found in
octets of any kind.
-/

namespace Gatehouse.Text

def utf8 (s : String) : List UInt8 :=
  s.toUTF8.data.toList

def ofUtf8? (octets : List UInt8) : Option String :=
  String.fromUTF8? ⟨octets.toArray⟩

def frontChar? (octets : List UInt8) : Option Char :=
  (octets.take 4).toByteArray.utf8DecodeChar? 0

/-- The characters of some octets, of which the first `due` belong to a character before. -/
def decodeFrom (stray : List Char) : Nat → List UInt8 → List Char
  | _, [] => []
  | due + 1, _ :: rest => decodeFrom stray due rest
  | 0, octet :: rest =>
    match frontChar? (octet :: rest) with
    | some c => c :: decodeFrom stray (c.utf8Size - 1) rest
    | none => stray ++ decodeFrom stray 0 rest

/-- The characters of some octets; for an octet that belongs to none `stray` stands. -/
def decode (stray : List Char) (octets : List UInt8) : List Char :=
  decodeFrom stray 0 octets

def octetCount (cs : List Char) : Nat :=
  cs.foldr (fun c n => c.utf8Size + n) 0

@[simp] theorem octetCount_nil : octetCount [] = 0 := rfl

@[simp] theorem octetCount_cons (c : Char) (cs : List Char) :
    octetCount (c :: cs) = c.utf8Size + octetCount cs := rfl

theorem length_le_octetCount (cs : List Char) : cs.length ≤ octetCount cs := by
  induction cs with
  | nil => simp
  | cons c cs ih =>
    have := c.utf8Size_pos
    simp only [List.length_cons, octetCount_cons]
    omega

theorem frontChar?_encoded (c : Char) (rest : List UInt8) :
    frontChar? (String.utf8EncodeChar c ++ rest) = some c := by
  have short : (String.utf8EncodeChar c).length ≤ 4 := by
    rw [String.length_utf8EncodeChar]
    exact c.utf8Size_le_four
  rw [frontChar?, List.take_append, List.take_of_length_le short, List.toByteArray_append]
  exact ByteArray.utf8DecodeChar?_utf8EncodeChar_append

theorem decodeFrom_skip (stray : List Char) (due rest : List UInt8) :
    decodeFrom stray due.length (due ++ rest) = decodeFrom stray 0 rest := by
  induction due with
  | nil => rfl
  | cons octet due ih => exact ih

theorem decodeFrom_encoded (stray : List Char) (c : Char) (rest : List UInt8) :
    decodeFrom stray 0 (String.utf8EncodeChar c ++ rest) = c :: decodeFrom stray 0 rest := by
  have found := frontChar?_encoded c rest
  have size : (String.utf8EncodeChar c).length = c.utf8Size := String.length_utf8EncodeChar c
  cases octets : String.utf8EncodeChar c with
  | nil =>
    rw [octets] at size
    exact absurd size.symm (Nat.ne_of_gt c.utf8Size_pos)
  | cons octet due =>
    rw [octets] at found size
    rw [List.cons_append] at found ⊢
    have owed : c.utf8Size - 1 = due.length := by
      rw [← size]
      rfl
    rw [decodeFrom, found]
    simp only [owed, decodeFrom_skip]

theorem utf8_ofList_cons (c : Char) (cs : List Char) :
    utf8 (String.ofList (c :: cs)) = String.utf8EncodeChar c ++ utf8 (String.ofList cs) := by
  simp [utf8, List.utf8Encode_singleton]

/-- The octets of a text are read as its characters, whatever octets follow them. -/
theorem decode_utf8_append (stray : List Char) (s : String) (rest : List UInt8) :
    decode stray (utf8 s ++ rest) = s.toList ++ decode stray rest := by
  obtain ⟨cs, rfl⟩ : ∃ cs, s = String.ofList cs := ⟨s.toList, String.ofList_toList.symm⟩
  rw [String.toList_ofList]
  induction cs with
  | nil => rfl
  | cons c cs ih =>
    rw [decode, utf8_ofList_cons, List.append_assoc, decodeFrom_encoded]
    exact congrArg (c :: ·) ih

example : decode ['?'] [0x61, 0xFF, 0xC3, 0xA9, 0xE2, 0x82, 0x22] = ['a', '?', 'é', '?', '?', '"'] := by
  decide

end Gatehouse.Text
