import Gatehouse.Json.Record
import Gatehouse.Proofs.Json.Values

/-! # Written records are read back

A record is written as an object with its members in the order in which the reader knows them. The reader goes
through them one after another: at every member it finds the field of that name, which no member before it was of, and
enters the value. What is left out is only what may be missing, so at the end the record is complete.
-/

namespace Gatehouse.Json

variable {α : Type} {rest : List Char}

/--
The members of a record stand in the order of its fields. What they are read as takes the record from one state to
another, and only fields that need not be there are left out.
-/
inductive InOrder : List (Field α) → α → List (String × Json) → α → Prop
  | done {a : α} : InOrder [] a [] a
  | member {β : Type} {name : String} {presence : Presence} {read : Reader β} {set : α → β → α}
      {fields : List (Field α)} {a : α} {j : Json} {x : β} {members : List (String × Json)} {b : α}
      (value : Reads read j x) (others : InOrder fields (set a x) members b) :
      InOrder (field name presence read set :: fields) a ((name, j) :: members) b
  | omitted {f : Field α} {fields : List (Field α)} {a : α} {members : List (String × Json)} {b : α}
      (free : f.presence ≠ .required) (others : InOrder fields a members b) : InOrder (f :: fields) a members b

/-- Where no two fields have the same name, a field is found by its own. -/
theorem find?_of_mem {fields : List (Field α)} (distinct : (fields.map Field.name).Nodup) {f : Field α}
    (h : f ∈ fields) : fields.find? (·.name = f.name) = some f := by
  induction fields with
  | nil => cases h
  | cons g fields ih =>
      rw [List.map_cons, List.nodup_cons] at distinct
      rcases List.mem_cons.mp h with rfl | later
      · exact List.find?_cons_of_pos (by simp)
      · have other : g.name ≠ f.name := fun same => distinct.1 (same ▸ List.mem_map_of_mem later)
        rw [List.find?_cons_of_neg (by simpa using other)]
        exact ih distinct.2 later

theorem renderMembers_append (name : String) (j : Json) (members : List (String × Json)) (rest : List Char) :
    renderMembers ((name, j) :: members) ++ rest =
      ',' :: (quoted name ++ ':' :: (j.render ++ (renderMembers members ++ rest))) := by
  simp [renderMembers]

theorem render_obj_append (name : String) (j : Json) (members : List (String × Json)) (rest : List Char) :
    (Json.obj ((name, j) :: members)).render ++ rest =
      openBrace :: (quoted name ++ ':' :: (j.render ++ (renderMembers members ++ rest))) := by
  simp [render]

theorem ended_renderMembers (members : List (String × Json)) (rest : List Char) :
    Ended (renderMembers members ++ rest) := by
  cases members <;> rintro _ ⟨⟩ <;> simp

theorem length_lt_renderMembers (members : List (String × Json)) :
    members.length < (renderMembers members).length := by
  induction members with
  | nil => exact Nat.zero_lt_one
  | cons m members ih =>
      obtain ⟨name, j⟩ := m
      simp only [renderMembers, List.length_cons, List.length_append, List.cons_append]
      omega

section Steps

variable {fields passed left : List (Field α)} {fuel : Nat} {seen : List String} {a b : α} {cs : List Char}

theorem membersFrom_first (name : String) : membersFrom fields (fuel + 1) true seen a (quoted name ++ cs) =
    membersFrom.member fields fuel seen a (quoted name ++ cs) := by
  rw [quoted_append, membersFrom, skipSpace_cons (by decide)]
  rfl

theorem membersFrom_next (name : String) : membersFrom fields (fuel + 1) false seen a (',' :: (quoted name ++ cs)) =
    membersFrom.member fields fuel seen a (quoted name ++ cs) := by
  rw [quoted_append, membersFrom, skipSpace_cons (by decide)]
  rfl

theorem membersFrom_end (first : Bool) (whole : complete fields seen = true) :
    membersFrom fields (fuel + 1) first seen a (closeBrace :: cs) = .ok (a, cs) := by
  rw [membersFrom, skipSpace_cons (by decide)]
  exact if_pos whole

/-- The step: a member of a field that has not been seen enters its value. -/
theorem member_quoted {β : Type} {name : String} {presence : Presence} {read : Reader β} {set : α → β → α}
    {j : Json} {x : β}
    (found : fields.find? (·.name = name) = some (field name presence read set)) (new : name ∉ seen)
    (value : Reads read j x) (ended : Ended cs) :
    membersFrom.member fields fuel seen a (quoted name ++ (':' :: (j.render ++ cs))) =
      membersFrom fields fuel false (name :: seen) (set a x) cs := by
  have taken : (field name presence read set).read (j.render ++ cs) = .ok (fun a => set a x, cs) := by
    simp only [field, value cs ended]
    rfl
  have unseen : ¬ seen.contains name = true := by simpa using new
  have colon : colon (':' :: (j.render ++ cs)) = .ok (j.render ++ cs) := rfl
  rw [quoted_append, membersFrom.member, stringBody_flatMap_escape, ok_bind]
  simp only [String.ofList_toList, found, if_neg unseen, colon, ok_bind, taken]

/--
The run: from any place the members that are left take the record to its end, provided that the fields before are
those that have been seen, or need not be.
-/
theorem membersFrom_renderMembers {members : List (String × Json)} (h : InOrder left a members b)
    (distinct : ((passed ++ left).map Field.name).Nodup) (within : ∀ name ∈ seen, name ∈ passed.map Field.name)
    (whole : ∀ f ∈ passed, f.presence = .required → f.name ∈ seen) (enough : members.length < fuel) :
    membersFrom (passed ++ left) fuel false seen a (renderMembers members ++ rest) = .ok (b, rest) := by
  induction h generalizing passed seen fuel with
  | done =>
      obtain ⟨fuel, rfl⟩ : ∃ k, fuel = k + 1 := ⟨fuel - 1, by omega⟩
      have complete : complete (passed ++ []) seen = true := by
        simp only [Json.complete, List.append_nil, List.all_eq_true, Bool.or_eq_true, bne_iff_ne, ne_eq,
          List.contains_iff_mem]
        exact fun f hf => Classical.or_iff_not_imp_left.mpr fun needed => whole f hf (Classical.not_not.mp needed)
      exact membersFrom_end false complete
  | @member β name presence read set left a j x members b value others ih =>
      rw [List.length_cons] at enough
      obtain ⟨fuel, rfl⟩ : ∃ k, fuel = k + 1 := ⟨fuel - 1, by omega⟩
      have regroup : passed ++ field name presence read set :: left =
          (passed ++ [field name presence read set]) ++ left := by simp
      have found : (passed ++ field name presence read set :: left).find? (·.name = name) =
          some (field name presence read set) := find?_of_mem distinct (f := field name presence read set) (by simp)
      have new : name ∉ seen := by
        intro among
        rw [List.map_append, List.nodup_append] at distinct
        exact distinct.2.2 name (within name among) name (List.mem_map_of_mem List.mem_cons_self) rfl
      rw [renderMembers_append, membersFrom_next, member_quoted found new value (ended_renderMembers members rest),
        regroup]
      apply ih
      case distinct => rwa [← regroup]
      case within =>
        intro other among
        rw [List.map_append, List.mem_append]
        rcases List.mem_cons.mp among with rfl | before
        · exact Or.inr List.mem_cons_self
        · exact Or.inl (within other before)
      case whole =>
        intro f hf needed
        rcases List.mem_append.mp hf with before | here
        · exact List.mem_cons_of_mem name (whole f before needed)
        · rw [List.mem_singleton.mp here]
          exact List.mem_cons_self
      case enough => omega
  | @omitted f left a members b free others ih =>
      have regroup : passed ++ f :: left = (passed ++ [f]) ++ left := by simp
      rw [regroup]
      apply ih
      case distinct => rwa [← regroup]
      case within =>
        intro name among
        rw [List.map_append, List.mem_append]
        exact Or.inl (within name among)
      case whole =>
        intro g hg needed
        rcases List.mem_append.mp hg with before | here
        · exact whole g before needed
        · rw [List.mem_singleton.mp here] at needed
          exact absurd needed free
      case enough => exact enough

end Steps

/-- A record whose members stand in the order of its fields is read back. -/
theorem reads_record {fields : List (Field α)} {blank a : α} {members : List (String × Json)}
    (distinct : (fields.map Field.name).Nodup) (h : InOrder fields blank members a) :
    Reads (record blank fields) (.obj members) a := by
  intro rest _
  have run {fuel : Nat} (enough : members.length < fuel) :
      membersFrom ([] ++ fields) fuel false [] blank (renderMembers members ++ rest) = .ok (a, rest) := by
    refine membersFrom_renderMembers h ?_ ?_ ?_ enough
    · exact distinct
    · exact fun _ among => absurd among List.not_mem_nil
    · exact fun _ among => absurd among List.not_mem_nil
  have opened (cs : List Char) : record blank fields (openBrace :: cs) =
      membersFrom fields (cs.length + 1) true [] blank cs := rfl
  have shorter := length_lt_renderMembers members
  rcases members with - | ⟨⟨name, j⟩, members⟩
  · have same : membersFrom fields ((closeBrace :: rest).length + 1) true [] blank (closeBrace :: rest) =
        membersFrom fields ((closeBrace :: rest).length + 1) false [] blank (closeBrace :: rest) := by
      rw [membersFrom, membersFrom, skipSpace_cons (by decide)]
      rfl
    exact (opened (closeBrace :: rest)).trans (same.trans (run (by simp)))
  · -- behind a comma the first member would be read in the same way
    rw [render_obj_append, opened, membersFrom_first, ← membersFrom_next, ← renderMembers_append]
    apply run
    simp only [renderMembers, List.length_append, List.length_cons, List.cons_append] at shorter ⊢
    omega

end Gatehouse.Json
