import Gatehouse.Store.TableNames

/-! # Names in the schema

The engine of the store does not tell the case of ASCII letters in names, and tables and indexes share their names.
The check of the names of tables compares them as they are written, and does not ask for the names of indexes. So
names that are accepted may clash, in two ways that are told here exactly: two tables whose names differ in case
only, or a table that is named like an index of another.
-/

namespace Gatehouse.Store

/-- A name as the engine compares it. -/
def foldCase (name : String) : List Char :=
  name.toList.map Char.toLower

/-- No two of some names are the same for the engine. -/
def Apart (names : List String) : Prop :=
  names.Pairwise fun a b => foldCase a ≠ foldCase b

instance (names : List String) : Decidable (Apart names) :=
  inferInstanceAs (Decidable (List.Pairwise _ names))

theorem foldCase_append (a b : String) : foldCase (a ++ b) = foldCase a ++ foldCase b := by
  rw [foldCase, String.toList_append, List.map_append]
  rfl

/-! ## Names that cannot clash -/

theorem foldCase_ne_append (name : String) {ending : String} (longer : foldCase ending ≠ []) :
    foldCase name ≠ foldCase (name ++ ending) := by
  rw [foldCase_append]
  exact fun same => longer (List.self_eq_append_right.mp same)

theorem foldCase_append_ne (name : String) {ending ending' : String} (other : foldCase ending ≠ foldCase ending') :
    foldCase (name ++ ending) ≠ foldCase (name ++ ending') := by
  rw [foldCase_append, foldCase_append]
  exact fun same => other (List.append_cancel_left same)

/-- The last letter tells the indexes of different tables apart, whatever the tables are called. -/
theorem foldCase_ne_of_getLast {a b ending ending' : String} {c d : Char} (last : (foldCase ending).getLast? = some c)
    (last' : (foldCase ending').getLast? = some d) (other : c ≠ d) :
    foldCase (a ++ ending) ≠ foldCase (b ++ ending') := by
  intro same
  have letters := congrArg List.getLast? same
  rw [foldCase_append, foldCase_append, List.getLast?_append, List.getLast?_append, last, last'] at letters
  exact other (Option.some.inj letters)

namespace TableNames

def NamesUserIndex (names : TableNames) (name : String) : Prop :=
  foldCase name = foldCase (names.users ++ "_email_aktiv") ∨
    foldCase name = foldCase (names.users ++ "_username_aktiv")

def NamesSessionIndex (names : TableNames) (name : String) : Prop :=
  foldCase name = foldCase (names.sessions ++ "_owner")

/-- The names of the schema are apart as long as those of the tables are, and no table is named like an index. -/
theorem apart_objectNames_iff (names : TableNames) : Apart names.objectNames ↔
    Apart names.toList ∧ ¬ names.NamesUserIndex names.sessions ∧ ¬ names.NamesUserIndex names.namespaces ∧
      ¬ names.NamesSessionIndex names.users ∧ ¬ names.NamesSessionIndex names.namespaces := by
  have usersEmail : foldCase names.users ≠ foldCase (names.users ++ "_email_aktiv") :=
    foldCase_ne_append _ (by decide)
  have usersUsername : foldCase names.users ≠ foldCase (names.users ++ "_username_aktiv") :=
    foldCase_ne_append _ (by decide)
  have emailUsername : foldCase (names.users ++ "_email_aktiv") ≠ foldCase (names.users ++ "_username_aktiv") :=
    foldCase_append_ne _ (by decide)
  have emailOwner : foldCase (names.users ++ "_email_aktiv") ≠ foldCase (names.sessions ++ "_owner") :=
    foldCase_ne_of_getLast (c := 'v') (d := 'r') rfl rfl (by decide)
  have usernameOwner : foldCase (names.users ++ "_username_aktiv") ≠ foldCase (names.sessions ++ "_owner") :=
    foldCase_ne_of_getLast (c := 'v') (d := 'r') rfl rfl (by decide)
  have sessionsOwner : foldCase names.sessions ≠ foldCase (names.sessions ++ "_owner") :=
    foldCase_ne_append _ (by decide)
  simp only [Apart, objectNames, toList, List.pairwise_cons, List.mem_cons, List.not_mem_nil, or_false,
    forall_eq_or_imp, forall_eq, List.Pairwise.nil, false_implies, implies_true, and_true, NamesUserIndex,
    NamesSessionIndex, not_or]
  constructor
  · rintro ⟨⟨_, _, us, uo, un⟩, ⟨_, es, _, en⟩, ⟨ns, _, nn⟩, ⟨_, sn⟩, on⟩
    exact ⟨⟨⟨us, un⟩, sn⟩, ⟨Ne.symm es, Ne.symm ns⟩, ⟨Ne.symm en, Ne.symm nn⟩, uo, Ne.symm on⟩
  · rintro ⟨⟨⟨us, un⟩, sn⟩, ⟨es, ns⟩, ⟨en, nn⟩, uo, on⟩
    exact ⟨⟨usersEmail, usersUsername, us, uo, un⟩, ⟨emailUsername, Ne.symm es, emailOwner, Ne.symm en⟩,
      ⟨Ne.symm ns, usernameOwner, Ne.symm nn⟩, ⟨sessionsOwner, sn⟩, Ne.symm on⟩

/-! ## What the check promises -/

theorem nodup_of_check {names : TableNames} (checked : names.check = .ok ()) : names.toList.Nodup := by
  rw [check] at checked
  split at checked
  · cases checked
  · split at checked
    · cases checked
    · rename_i differ
      rw [not_or, not_or] at differ
      obtain ⟨us, un, sn⟩ := differ
      simp [toList, us, un, sn]

/-- Names without capitals are compared as they are written. -/
theorem apart_of_nodup {names : List String} (distinct : names.Nodup)
    (plain : ∀ name ∈ names, foldCase name = name.toList) : Apart names := by
  apply List.Pairwise.imp_of_mem _ distinct
  intro a b ha hb other same
  rw [plain a ha, plain b hb] at same
  exact other (String.toList_inj.mp same)

theorem foldCase_ne_of_not_suffix {name stem ending : String} {tail : List Char}
    (plain : foldCase name = name.toList) (ends : tail <:+ foldCase ending) (otherwise : ¬ tail <:+ name.toList) :
    foldCase name ≠ foldCase (stem ++ ending) := by
  intro same
  rw [plain, foldCase_append] at same
  rw [same] at otherwise
  exact otherwise (ends.trans (List.suffix_append _ _))

/-- A name without capitals and without the endings of indexes. -/
structure Plain (name : String) : Prop where
  small : foldCase name = name.toList
  not_aktiv : ¬ "_aktiv".toList <:+ name.toList
  not_owner : ¬ "_owner".toList <:+ name.toList

instance (name : String) : Decidable (Plain name) :=
  decidable_of_iff
    (foldCase name = name.toList ∧ ¬ "_aktiv".toList <:+ name.toList ∧ ¬ "_owner".toList <:+ name.toList)
    ⟨fun ⟨small, aktiv, owner⟩ => ⟨small, aktiv, owner⟩, fun h => ⟨h.small, h.not_aktiv, h.not_owner⟩⟩

theorem Plain.not_namesUserIndex {name : String} (h : Plain name) (names : TableNames) :
    ¬ names.NamesUserIndex name := by
  rw [NamesUserIndex, not_or]
  exact ⟨foldCase_ne_of_not_suffix h.small (by decide) h.not_aktiv,
    foldCase_ne_of_not_suffix h.small (by decide) h.not_aktiv⟩

theorem Plain.not_namesSessionIndex {name : String} (h : Plain name) (names : TableNames) :
    ¬ names.NamesSessionIndex name :=
  foldCase_ne_of_not_suffix h.small (by decide) h.not_owner

/--
Names that are accepted are different as they are written. The six objects of the schema have names that are apart
exactly if, besides, no two tables differ in case only and no table is named like an index of another. With names
without capitals that do not end like indexes the check is enough.
-/
theorem schema_apart {names : TableNames} (checked : names.check = .ok ()) :
    names.toList.Nodup ∧
    (Apart names.objectNames ↔
      Apart names.toList ∧ ¬ names.NamesUserIndex names.sessions ∧ ¬ names.NamesUserIndex names.namespaces ∧
        ¬ names.NamesSessionIndex names.users ∧ ¬ names.NamesSessionIndex names.namespaces) ∧
    ((∀ name ∈ names.toList, Plain name) → Apart names.objectNames) := by
  have distinct := nodup_of_check checked
  refine ⟨distinct, names.apart_objectNames_iff, ?_⟩
  intro plain
  have users : Plain names.users := plain _ (by simp [toList])
  have sessions : Plain names.sessions := plain _ (by simp [toList])
  have namespaces : Plain names.namespaces := plain _ (by simp [toList])
  rw [apart_objectNames_iff]
  exact ⟨apart_of_nodup distinct fun name among => (plain name among).small, sessions.not_namesUserIndex names,
    namespaces.not_namesUserIndex names, users.not_namesSessionIndex names, namespaces.not_namesSessionIndex names⟩

/-- Tables with names of their own. -/
def renamed : TableNames :=
  ⟨"konto", "anmeldung", "raum_2"⟩

/-- Their names are plain, so no two objects clash. -/
theorem schema_apart_renamed :
    renamed.check = .ok () ∧ (∀ name ∈ renamed.toList, Plain name) ∧ Apart renamed.objectNames := by
  have checked : renamed.check = .ok () := by rfl
  have plain : ∀ name ∈ renamed.toList, Plain name := by decide
  obtain ⟨_, _, enough⟩ := schema_apart checked
  exact ⟨checked, plain, enough plain⟩

/-- Accepted, and yet a clash: of two tables, of a table and an index of users, of an index of sessions and a table. -/
theorem clashing_accepted :
    let capital : TableNames := ⟨"user", "User", "namespace"⟩
    let indexed : TableNames := ⟨"konto", "konto_email_aktiv", "raum"⟩
    let owned : TableNames := ⟨"gast_owner", "gast", "raum"⟩
    (capital.check = .ok () ∧ ¬ Apart capital.objectNames) ∧
      (indexed.check = .ok () ∧ ¬ Apart indexed.objectNames) ∧
      (owned.check = .ok () ∧ ¬ Apart owned.objectNames) :=
  ⟨⟨by rfl, by decide⟩, ⟨by rfl, by decide +kernel⟩, ⟨by rfl, by decide +kernel⟩⟩

end TableNames

end Gatehouse.Store
