import Gatehouse.Records.Json
import Mathlib.Data.List.Induction
import Mathlib.Data.List.Nodup
import Mathlib.Data.List.Perm.Subperm
import Mathlib.Logic.Function.Basic

/-! # Dealing out namespaces

The namespaces of a list are filed under the numbers of their owners. Only one is kept under a number: a later one
takes the place of an earlier one. Then the users come one after another, and each takes away what it finds under its
own number. Nothing is assumed of either list: numbers of users and of owners may be repeated. What the users before
have left behind is what was filed, less what was filed under their numbers, and from this follows what each user finds.
-/

namespace Gatehouse

/-! ## What is filed under a number -/

/-- What is filed under each number. -/
abbrev Filing := Int → Option Namespace

namespace Filing

/-- Files a namespace under the number of its owner, in the place of what is there. -/
def put (f : Filing) (n : Namespace) : Filing :=
  Function.update f n.ownerId (some n)

/-- Takes away what is filed under a number. -/
def without (f : Filing) (owner : Int) : Filing :=
  Function.update f owner none

/-- What is left when some users have been there. -/
def after (f : Filing) (users : List User) : Filing :=
  users.foldl (fun left u => left.without u.id.number) f

/-- Each of the users takes away what is left for it. -/
def dealTo (f : Filing) : List User → List UserWithNamespace
  | [] => []
  | u :: users => ⟨u, f u.id.number⟩ :: (f.without u.id.number).dealTo users

theorem put_apply (f : Filing) (n : Namespace) (owner : Int) :
    f.put n owner = if owner = n.ownerId then some n else f owner :=
  Function.update_apply f n.ownerId (some n) owner

theorem without_apply (f : Filing) (taken owner : Int) :
    f.without taken owner = if owner = taken then none else f owner :=
  Function.update_apply f taken none owner

/-- Some users leave behind whatever is not filed under the number of one of them. -/
theorem after_apply (f : Filing) (users : List User) (owner : Int) :
    f.after users owner = if owner ∈ ownerIds users then none else f owner := by
  induction users generalizing f with
  | nil => rfl
  | cons u users ih =>
      have first : f.after (u :: users) = (f.without u.id.number).after users := rfl
      rw [first, ih, without_apply, ownerIds, ownerIds, List.map_cons]
      by_cases hers : owner = u.id.number
      · simp [hers]
      · simp [hers]

theorem getElem?_dealTo (f : Filing) (users : List User) (i : Nat) :
    (f.dealTo users)[i]? = users[i]?.map fun u => ⟨u, f.after (users.take i) u.id.number⟩ := by
  induction users generalizing f i with
  | nil => rfl
  | cons u users ih =>
      cases i with
      | zero => rfl
      | succ i => exact ih (f.without u.id.number) i

/-- Where no number is repeated, nobody takes away what another should find. -/
theorem dealTo_eq_map (f : Filing) {users : List User} (distinct : (ownerIds users).Nodup) :
    f.dealTo users = users.map fun u => ⟨u, f u.id.number⟩ := by
  induction users generalizing f with
  | nil => rfl
  | cons u users ih =>
      obtain ⟨apart, distinct⟩ := List.nodup_cons.mp distinct
      rw [dealTo, ih _ distinct, List.map_cons]
      congr 1
      apply List.map_congr_left
      intro v hv
      rw [without_apply, if_neg]
      intro same
      exact apart (List.mem_map.mpr ⟨v, hv, same⟩)

/-- Whoever is dealt a namespace has found it under its number, where it was from the start. -/
theorem eq_some_of_mem_dealTo {f : Filing} {users : List User} {account : UserWithNamespace}
    (among : account ∈ f.dealTo users) {n : Namespace} (home : account.home = some n) :
    f account.user.id.number = some n := by
  induction users generalizing f with
  | nil => cases among
  | cons u users ih =>
      rcases List.mem_cons.mp among with rfl | among
      · exact home
      · have left := ih among
        rw [without_apply, Option.ite_none_left_eq_some] at left
        exact left.2

/-- Nobody who comes after a user of its own number is dealt a namespace. -/
theorem pairwise_dealTo (f : Filing) (users : List User) :
    (f.dealTo users).Pairwise fun a b => ∀ n, b.home = some n → b.user.id.number ≠ a.user.id.number := by
  induction users generalizing f with
  | nil => exact List.Pairwise.nil
  | cons u users ih =>
      refine List.Pairwise.cons ?_ (ih (f.without u.id.number))
      intro b among n home same
      have left := eq_some_of_mem_dealTo among home
      rw [same, without_apply, if_pos rfl] at left
      cases left

end Filing

def filed (namespaces : List Namespace) : Filing :=
  namespaces.foldl Filing.put fun _ => none

theorem filed_eq_find? (namespaces : List Namespace) (owner : Int) :
    filed namespaces owner = namespaces.reverse.find? (·.ownerId = owner) := by
  -- what is filed last is found first, so the list is taken from its end
  induction namespaces using List.reverseRecOn with
  | nil => rfl
  | append_singleton namespaces n ih =>
      have last : filed (namespaces ++ [n]) = (filed namespaces).put n := List.foldl_concat ..
      rw [last, Filing.put_apply, ih, List.reverse_concat, List.find?_cons]
      by_cases hers : n.ownerId = owner
      · simp [hers]
      · simp [hers, Ne.symm hers]

theorem filed_filter (namespaces : List Namespace) (taken : Int) :
    filed (namespaces.filter (·.ownerId ≠ taken)) = (filed namespaces).without taken := by
  funext owner
  rw [Filing.without_apply, filed_eq_find?, filed_eq_find?, ← List.filter_reverse, List.find?_filter]
  by_cases same : owner = taken
  · rw [if_pos same, List.find?_eq_none]
    intro n _
    simp [same]
  · rw [if_neg same]
    congr 1
    funext n
    by_cases hers : n.ownerId = owner
    · simp [hers, same]
    · simp [hers]

theorem attachNamespaces_eq_dealTo (namespaces : List Namespace) (users : List User) :
    attachNamespaces namespaces users = (filed namespaces).dealTo users := by
  induction users generalizing namespaces with
  | nil => rfl
  | cons u users ih => rw [attachNamespaces, ih, filed_filter, ← filed_eq_find?, Filing.dealTo]

/-! ## The last one under a number -/

/-- The last of some namespaces that belongs to an owner of a number. -/
def Namespace.IsLastOf (n : Namespace) (owner : Int) (namespaces : List Namespace) : Prop :=
  n.ownerId = owner ∧ ∃ earlier later, namespaces = earlier ++ n :: later ∧ ∀ m ∈ later, m.ownerId ≠ owner

theorem Namespace.IsLastOf.mem {n : Namespace} {owner : Int} {namespaces : List Namespace}
    (h : n.IsLastOf owner namespaces) : n ∈ namespaces := by
  obtain ⟨_, earlier, later, rfl, _⟩ := h
  exact List.mem_append_right earlier List.mem_cons_self

/-- Where owners are not repeated, the only one of an owner is its last one. -/
theorem Namespace.isLastOf_iff_mem {namespaces : List Namespace} (distinct : (namespaces.map (·.ownerId)).Nodup)
    {n : Namespace} {owner : Int} : n.IsLastOf owner namespaces ↔ n ∈ namespaces ∧ n.ownerId = owner := by
  constructor
  · intro last
    exact ⟨last.mem, last.1⟩
  · rintro ⟨among, rfl⟩
    obtain ⟨earlier, later, rfl⟩ := List.append_of_mem among
    refine ⟨rfl, earlier, later, rfl, fun m hm same => ?_⟩
    rw [List.map_append, List.map_cons] at distinct
    have apart := (List.nodup_cons.mp (List.nodup_append.mp distinct).2.1).1
    exact apart (List.mem_map.mpr ⟨m, hm, same⟩)

theorem filed_eq_some_iff {namespaces : List Namespace} {owner : Int} {n : Namespace} :
    filed namespaces owner = some n ↔ n.IsLastOf owner namespaces := by
  rw [filed_eq_find?, List.find?_eq_some_iff_append, Namespace.IsLastOf, decide_eq_true_eq]
  constructor
  · rintro ⟨hers, later, earlier, split, others⟩
    refine ⟨hers, earlier.reverse, later.reverse, ?_, ?_⟩
    · rw [List.reverse_eq_iff] at split
      simpa using split
    · intro m hm
      simpa using others m (List.mem_reverse.mp hm)
  · rintro ⟨hers, earlier, later, rfl, others⟩
    refine ⟨hers, later.reverse, earlier.reverse, by simp, ?_⟩
    intro m hm
    simpa using others m (List.mem_reverse.mp hm)

theorem filed_eq_none_iff {namespaces : List Namespace} {owner : Int} :
    filed namespaces owner = none ↔ ∀ n ∈ namespaces, n.ownerId ≠ owner := by
  simp [filed_eq_find?]

/-- Where owners are not repeated, the order in which they are filed does not matter. -/
theorem filed_of_perm {namespaces namespaces' : List Namespace} (distinct : (namespaces.map (·.ownerId)).Nodup)
    (reordered : namespaces'.Perm namespaces) : filed namespaces' = filed namespaces := by
  have distinct' : (namespaces'.map (·.ownerId)).Nodup := (reordered.map _).nodup_iff.mpr distinct
  funext owner
  apply Option.ext
  intro n
  rw [filed_eq_some_iff, filed_eq_some_iff, Namespace.isLastOf_iff_mem distinct, Namespace.isLastOf_iff_mem distinct',
    reordered.mem_iff]

/-! ## What each user is dealt -/

theorem attachNamespaces_users (namespaces : List Namespace) (users : List User) :
    (attachNamespaces namespaces users).map (·.user) = users := by
  induction users generalizing namespaces with
  | nil => rfl
  | cons u users ih => rw [attachNamespaces, List.map_cons, ih]

theorem mem_ownerIds {users : List User} {id : UserId} : id.number ∈ ownerIds users ↔ ∃ v ∈ users, v.id = id := by
  simp only [ownerIds, List.mem_map, UserId.ext_iff]

theorem after_filed_eq_some_iff {namespaces : List Namespace} {before : List User} {id : UserId} {n : Namespace} :
    (filed namespaces).after before id.number = some n ↔
      (∀ v ∈ before, v.id ≠ id) ∧ n.IsLastOf id.number namespaces := by
  rw [Filing.after_apply, Option.ite_none_left_eq_some, filed_eq_some_iff, mem_ownerIds]
  push Not
  rfl

theorem after_filed_eq_none_iff {namespaces : List Namespace} {before : List User} {id : UserId} :
    (filed namespaces).after before id.number = none ↔
      (∃ v ∈ before, v.id = id) ∨ ∀ n ∈ namespaces, n.ownerId ≠ id.number := by
  rw [Filing.after_apply, ite_eq_left_iff, filed_eq_none_iff, mem_ownerIds, or_iff_not_imp_left]

theorem getElem?_attachNamespaces (namespaces : List Namespace) (users : List User) (i : Nat) :
    (attachNamespaces namespaces users)[i]? =
      users[i]?.map fun u => ⟨u, (filed namespaces).after (users.take i) u.id.number⟩ := by
  rw [attachNamespaces_eq_dealTo, Filing.getElem?_dealTo]

theorem isLastOf_of_mem_attachNamespaces {namespaces : List Namespace} {users : List User}
    {account : UserWithNamespace} (among : account ∈ attachNamespaces namespaces users) {n : Namespace}
    (home : account.home = some n) : n.IsLastOf account.user.id.number namespaces := by
  rw [attachNamespaces_eq_dealTo] at among
  exact filed_eq_some_iff.mp (Filing.eq_some_of_mem_dealTo among home)

theorem nodup_owners_attachNamespaces (namespaces : List Namespace) (users : List User) :
    (((attachNamespaces namespaces users).filterMap (·.home)).map (·.ownerId)).Nodup := by
  rw [List.Nodup, List.pairwise_map, List.pairwise_filterMap]
  have apart : (attachNamespaces namespaces users).Pairwise fun a b =>
      ∀ n, b.home = some n → b.user.id.number ≠ a.user.id.number := by
    rw [attachNamespaces_eq_dealTo]
    exact Filing.pairwise_dealTo _ users
  -- two namespaces of one owner would have gone to two users of one number
  refine apart.imp_of_mem fun {a b} ha hb other n first m second same => other m second ?_
  rw [← (isLastOf_of_mem_attachNamespaces ha first).1, ← (isLastOf_of_mem_attachNamespaces hb second).1, same]

/--
Every user comes in its place. With it comes the last of the namespaces under its number if it is the first user of
that number, and if there is one; else there comes none. So everybody is dealt what is its own, and what is dealt to
all of them is a part of the list, each namespace of it at most once. Where no owner is repeated, the order of the
namespaces does not matter, however often a user is repeated.
-/
theorem dealt_in_turn (users : List User) (namespaces : List Namespace) :
    let accounts := attachNamespaces namespaces users
    accounts.length = users.length ∧
    (∀ i u, users[i]? = some u → ∃ home, accounts[i]? = some ⟨u, home⟩ ∧
      (∀ n, home = some n ↔ (∀ v ∈ users.take i, v.id ≠ u.id) ∧ n.IsLastOf u.id.number namespaces) ∧
      (home = none ↔ (∃ v ∈ users.take i, v.id = u.id) ∨ ∀ n ∈ namespaces, n.ownerId ≠ u.id.number)) ∧
    (∀ account ∈ accounts, ∀ n, account.home = some n → n ∈ namespaces ∧ n.ownerId = account.user.id.number) ∧
    ((accounts.filterMap (·.home)).map (·.ownerId)).Nodup ∧
    (accounts.filterMap (·.home)).Subperm namespaces ∧
    ((namespaces.map (·.ownerId)).Nodup → ∀ namespaces', namespaces'.Perm namespaces →
      attachNamespaces namespaces' users = accounts) := by
  intro accounts
  have owners : ((accounts.filterMap (·.home)).map (·.ownerId)).Nodup := nodup_owners_attachNamespaces namespaces users
  have own : ∀ account ∈ accounts, ∀ n, account.home = some n →
      n ∈ namespaces ∧ n.ownerId = account.user.id.number := by
    intro account among n home
    have last := isLastOf_of_mem_attachNamespaces among home
    exact ⟨last.mem, last.1⟩
  refine ⟨?_, ?_, own, owners, ?_, ?_⟩
  · rw [← List.length_map (·.user), attachNamespaces_users]
  · intro i u hu
    refine ⟨(filed namespaces).after (users.take i) u.id.number, ?_, ?_, after_filed_eq_none_iff⟩
    · rw [getElem?_attachNamespaces, hu]
      rfl
    · intro n
      exact after_filed_eq_some_iff
  · apply List.subperm_of_subset (List.Nodup.of_map _ owners)
    intro n dealt
    obtain ⟨account, among, home⟩ := List.mem_filterMap.mp dealt
    exact (own account among n home).1
  · intro distinct namespaces' reordered
    rw [attachNamespaces_eq_dealTo, filed_of_perm distinct reordered, ← attachNamespaces_eq_dealTo]

/-- A user of whom only the number is told. -/
def User.numbered (number : Int) : User :=
  { User.blank with id := ⟨number⟩ }

/--
User 1 comes twice, and two namespaces are under its number: it is dealt the later one when it comes first, and none
when it comes again. Without the earlier one, the others can be listed the other way round.
-/
theorem dealt_in_turn_repeated :
    let users := [1, 2, 1, 3].map User.numbered
    let carol : Namespace := ⟨⟨10⟩, 3, .user, "carol"⟩
    let ada : Namespace := ⟨⟨11⟩, 1, .user, "ada"⟩
    let works : Namespace := ⟨⟨12⟩, 1, .organisation, "works"⟩
    (users[0]? = some (.numbered 1) ∧ works.IsLastOf 1 [carol, ada, works] ∧
      (attachNamespaces [carol, ada, works] users)[0]? = some ⟨.numbered 1, some works⟩) ∧
    (users[2]? = some (.numbered 1) ∧ .numbered 1 ∈ users.take 2 ∧
      (attachNamespaces [carol, ada, works] users)[2]? = some ⟨.numbered 1, none⟩) ∧
    (([carol, works].map (·.ownerId)).Nodup ∧ [works, carol].Perm [carol, works] ∧
      attachNamespaces [works, carol] users = attachNamespaces [carol, works] users) := by
  intro users carol ada works
  obtain ⟨_, entries, _⟩ := dealt_in_turn users [carol, ada, works]
  refine ⟨?_, ?_, ?_⟩
  · have last : works.IsLastOf 1 [carol, ada, works] := ⟨rfl, [carol, ada], [], rfl, by simp⟩
    obtain ⟨home, dealt, found, _⟩ := entries 0 (.numbered 1) rfl
    rw [(found works).mpr ⟨by simp, last⟩] at dealt
    exact ⟨rfl, last, dealt⟩
  · have again : .numbered 1 ∈ users.take 2 := List.mem_cons_self
    obtain ⟨home, dealt, _, nothing⟩ := entries 2 (.numbered 1) rfl
    rw [nothing.mpr (Or.inl ⟨.numbered 1, again, rfl⟩)] at dealt
    exact ⟨rfl, again, dealt⟩
  · have distinct : ([carol, works].map (·.ownerId)).Nodup := by decide
    have reordered : [works, carol].Perm [carol, works] := .swap carol works []
    obtain ⟨_, _, _, _, _, same⟩ := dealt_in_turn users [carol, works]
    exact ⟨distinct, reordered, same distinct _ reordered⟩

end Gatehouse
