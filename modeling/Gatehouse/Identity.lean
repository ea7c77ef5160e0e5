import Gatehouse.Text.Decimal

/-!
# Identities

Users and namespaces are known by the numbers of their rows. The two kinds of number are kept apart,
and so are the two kinds of owner that a namespace can have.
-/

namespace Gatehouse

open Gatehouse.Text

@[ext] structure UserId where
  number : Int
  deriving Repr, DecidableEq, Inhabited

@[ext] structure NamespaceId where
  number : Int
  deriving Repr, DecidableEq, Inhabited

def UserId.text (id : UserId) : String :=
  "user:" ++ Decimal.intText id.number

def NamespaceId.text (id : NamespaceId) : String :=
  "namespace:" ++ Decimal.intText id.number

inductive OwnerKind
  | user
  | organisation
  deriving Repr, DecidableEq, Inhabited

namespace OwnerKind

/-- The number that the store keeps for a kind of owner. -/
def code : OwnerKind → Int
  | user => 1
  | organisation => 2

def ofCode? (n : Int) : Option OwnerKind :=
  if n = 1 then some user
  else if n = 2 then some organisation
  else none

def unknownCode (n : Int) : String :=
  "Unbekannter Owner-Typ: " ++ Decimal.intText n

def word : OwnerKind → String
  | user => "benutzer"
  | organisation => "organisation"

def words : List (String × OwnerKind) :=
  [user, organisation].map fun k => (k.word, k)

theorem ofCode?_code (k : OwnerKind) : ofCode? k.code = some k := by
  cases k <;> rfl

theorem code_injective {k l : OwnerKind} (h : k.code = l.code) : k = l := by
  cases k <;> cases l <;> first | rfl | cases h

theorem code_of_ofCode? {n : Int} {k : OwnerKind} (h : ofCode? n = some k) : n = k.code := by
  unfold ofCode? at h
  split at h
  · cases h; assumption
  · split at h
    · cases h; assumption
    · cases h

end OwnerKind

end Gatehouse
