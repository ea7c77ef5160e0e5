import Gatehouse.Auth.Login

/-! # Arrays of plain strings

A string without quotes, escapes and control characters is read as it stands. So a record whose members are such
strings is read from an array of them, member by member, and a login from two.
-/

namespace Gatehouse

open Gatehouse.Text

namespace Json

/-- A character that stands for itself in a string. -/
def isPlain (c : Char) : Bool :=
  c != '"' && c != '\\' && 32 ≤ c.toNat

section Strings

variable {cs : List Char} (plain : cs.all isPlain = true) (rest : List Char)
include plain

theorem stringBody_of_plain : stringBody (cs ++ '"' :: rest) = .ok (cs, rest) := by
  induction cs with
  | nil => rw [List.nil_append, stringBody]
  | cons c cs ih =>
      simp only [List.all_cons, isPlain, Bool.and_eq_true, bne_iff_ne, decide_eq_true_eq] at plain
      obtain ⟨⟨⟨not_quote, not_escape⟩, not_control⟩, later⟩ := plain
      rw [List.cons_append, stringBody, if_neg (Nat.not_lt.mpr not_control), ih later]
      · rfl
      · exact not_quote
      · exact not_escape

theorem string_of_plain : string ('"' :: (cs ++ '"' :: rest)) = .ok (String.ofList cs, rest) := by
  have body : string ('"' :: (cs ++ '"' :: rest)) =
      (stringBody (cs ++ '"' :: rest)).map fun read => (String.ofList read.1, read.2) := rfl
  rw [body, stringBody_of_plain plain]
  rfl

end Strings

section Members

variable {α : Type} {cs : List Char} (plain : cs.all isPlain = true) (rest : List Char) (name : String)
  (presence : Presence) (set : α → String → α) (fields : List (Field α)) (a : α)
include plain

theorem itemsInOrder_first :
    itemsInOrder true (field name presence string set :: fields) a ('"' :: (cs ++ '"' :: rest)) =
      itemsInOrder false fields (set a (String.ofList cs)) rest := by
  have quote : skipSpace ('"' :: (cs ++ '"' :: rest)) = '"' :: (cs ++ '"' :: rest) := rfl
  simp [itemsInOrder, quote, itemsInOrder.item, field, string_of_plain plain, Except.map, bind, Except.bind]

theorem itemsInOrder_next :
    itemsInOrder false (field name presence string set :: fields) a (',' :: '"' :: (cs ++ '"' :: rest)) =
      itemsInOrder false fields (set a (String.ofList cs)) rest := by
  have comma : skipSpace (',' :: '"' :: (cs ++ '"' :: rest)) = ',' :: '"' :: (cs ++ '"' :: rest) := rfl
  have quote : skipSpace ('"' :: (cs ++ '"' :: rest)) = '"' :: (cs ++ '"' :: rest) := rfl
  simp [itemsInOrder, comma, quote, itemsInOrder.item, field, string_of_plain plain, Except.map, bind, Except.bind]

end Members

end Json

/-- Whatever octets follow the closing bracket, two plain strings are read as a login. -/
theorem Auth.LoginRequest.readFront_of_plain {identifier password : List Char}
    (plain : identifier.all Json.isPlain = true) (plain' : password.all Json.isPlain = true) (rest : List UInt8) :
    Json.readFront LoginRequest.reader
        (utf8 (String.ofList ('[' :: '"' :: (identifier ++ '"' :: ',' :: '"' :: (password ++ ['"', ']'])))) ++ rest) =
      .ok ⟨String.ofList identifier, String.ofList password⟩ := by
  have opened (cs : List Char) : LoginRequest.reader ('[' :: '"' :: cs) =
      Json.itemsInOrder true
        [Json.field "email" .required Json.string fun r x => { r with identifier := x },
         Json.field "password" .required Json.string fun r x => { r with password := x }] ⟨"", ""⟩ ('"' :: cs) := rfl
  rw [Json.readFront, decode_utf8_append, String.toList_ofList]
  simp only [List.cons_append, List.append_assoc, List.nil_append]
  rw [opened, Json.itemsInOrder_first plain, Json.itemsInOrder_next plain', Json.itemsInOrder]
  rfl

end Gatehouse
