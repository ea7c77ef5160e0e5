import Gatehouse.Proofs.Results
import Gatehouse.Proofs.Toml.Names
import Gatehouse.Settings.Toml

/-! # Keys of the settings

A key is a path of names through the tables of a document, and what it may hold is of one kind. The settings are
entered in the order of the document, table by table. Since no table gives a name twice, the order does not matter:
in the end every key that the document sets holds the value that it is given there, and every other one its usual
value. That is shown once for any part of the settings, from what a single entry does.
-/

namespace Gatehouse

namespace Toml

/-- The entries of a value that is a table. -/
def Value.entries? : Value → Option Entries
  | .table _ entries => some entries
  | .inlineTable entries => some entries
  | _ => none

theorem Value.distinct_entries? {v : Value} {entries : Entries} (h : v.Distinct) (table : v.entries? = some entries) :
    entries.Distinct := by
  cases v with
  | table origin es =>
      cases table
      exact Value.distinct_table.mp h
  | inlineTable es =>
      cases table
      exact Value.distinct_inlineTable.mp h
  | _ => cases table

/-- The value at the end of a path through tables. -/
def Entries.at? : List String → Entries → Option Value
  | [], _ => none
  | [name], entries => entries.lookup name
  | name :: path, entries => ((entries.lookup name).bind Value.entries?).bind (at? path)

namespace Entries

variable {entries entries' : Entries} {name : String} {v : Value}

theorem at?_cons {path : List String} (h : path ≠ []) :
    at? (name :: path) entries = ((entries.lookup name).bind Value.entries?).bind (at? path) := by
  cases path with
  | nil => exact absurd rfl h
  | cons n path => rfl

/-- Only the first name of a path is looked for in the table itself. -/
theorem at?_congr {path : List String} (h : ∀ n ∈ path.head?, entries.lookup n = entries'.lookup n) :
    at? path entries = at? path entries' := by
  cases path with
  | nil => rfl
  | cons n path =>
      have same := h n rfl
      cases path with
      | nil => exact same
      | cons m path => rw [at?_cons (List.cons_ne_nil m path), at?_cons (List.cons_ne_nil m path), same]

theorem lookup_of_mem (names : (entries.map Prod.fst).Nodup) (h : (name, v) ∈ entries) :
    entries.lookup name = some v := by
  obtain ⟨before, after, rfl⟩ := List.append_of_mem h
  refine List.lookup_eq_some_iff.mpr ⟨before, after, rfl, fun p hp => ?_⟩
  rw [List.map_append, List.nodup_append] at names
  have other := names.2.2 p.1 (List.mem_map_of_mem hp) name (List.mem_map_of_mem List.mem_cons_self)
  simpa using Ne.symm other

/-- What stands under one name does not matter to the others. -/
theorem lookup_replace (before : Entries) {after : Entries} {w : Value} {n : String} (other : n ≠ name) :
    (before ++ (name, v) :: after).lookup n = (before ++ (name, w) :: after).lookup n := by
  have differs : (n == name) = false := by simpa using other
  simp only [List.lookup_append, List.lookup_cons, differs]

theorem lookup_eq_none (h : name ∉ entries.map Prod.fst) : entries.lookup name = none := by
  refine List.lookup_eq_none_iff.mpr fun p hp => ?_
  have other : name ≠ p.1 := fun same => h (same ▸ List.mem_map_of_mem hp)
  simpa using other

end Entries

end Toml

namespace Settings

open Toml.Entries

/-! ## Kinds -/

/-- What a key may hold. -/
inductive Kind
  | text
  | truth
  | whole
  /-- A whole number of so many bits without a sign. -/
  | unsigned (bits : Nat)
  | texts
  deriving Repr, DecidableEq

def isText : Toml.Value → Bool
  | .string _ => true
  | _ => false

def Kind.admits : Kind → Toml.Value → Bool
  | text, v => isText v
  | truth, .boolean _ => true
  | whole, .integer _ => true
  | unsigned bits, .integer n => 0 ≤ n && n < Nat.pow 2 bits
  | texts, .array items => items.all isText
  | _, _ => false

/-- Every value of a kind is the form of something, and is decoded as that. -/
def Kind.DecodedBy {β : Type} (kind : Kind) (decode : Toml.Value → Option β) (form : β → Toml.Value) : Prop :=
  ∀ v, kind.admits v = true → ∃ x, v = form x ∧ decode (form x) = some x

theorem text_decodedBy : Kind.text.DecodedBy asString .string := by
  intro v h
  cases v with
  | string s => exact ⟨s, rfl, rfl⟩
  | _ => cases h

theorem truth_decodedBy : Kind.truth.DecodedBy asBoolean .boolean := by
  intro v h
  cases v with
  | boolean b => exact ⟨b, rfl, rfl⟩
  | _ => cases h

theorem whole_decodedBy : Kind.whole.DecodedBy asInteger .integer := by
  intro v h
  cases v with
  | integer n => exact ⟨n, rfl, rfl⟩
  | _ => cases h

theorem unsigned_decodedBy {bits : Nat} :
    (Kind.unsigned bits).DecodedBy (asUnsigned bits) fun n : Nat => .integer n := by
  intro v h
  cases v with
  | integer n =>
      simp only [Kind.admits, Bool.and_eq_true, decide_eq_true_eq] at h
      have same : (n.toNat : Int) = n := Int.toNat_of_nonneg h.1
      refine ⟨n.toNat, ?_, ?_⟩
      · simp only [same]
      · simp only [same, asUnsigned, if_pos h]
  | _ => cases h

theorem texts_decodedBy : Kind.texts.DecodedBy asStrings fun ss : List String => .array (ss.map .string) := by
  intro v h
  cases v with
  | array items =>
      rw [Kind.admits] at h
      have decoded : ∃ ss : List String, items = ss.map .string ∧ (ss.map .string).mapM asString = some ss := by
        induction items with
        | nil => exact ⟨[], rfl, rfl⟩
        | cons v items ih =>
            rw [List.all_cons, Bool.and_eq_true] at h
            obtain ⟨s, rfl, -⟩ := text_decodedBy v h.1
            obtain ⟨ss, rfl, later⟩ := ih h.2
            exact ⟨s :: ss, rfl, by rw [List.map_cons, List.mapM_cons, later]; rfl⟩
      obtain ⟨ss, rfl, decoded⟩ := decoded
      exact ⟨ss, rfl, decoded⟩
  | _ => cases h

/-! ## Entering values -/

section Entering

variable {α : Type} {entries : List (Entry α)} {name : String} {v : Toml.Value} {values : Toml.Entries} {a a' : α}

theorem enterNamed_cons_none (unknown : entries.find? (·.name = name) = none) :
    enterNamed entries ((name, v) :: values) a = enterNamed entries values a := by
  simp only [enterNamed, List.foldlM_cons, unknown]
  rfl

theorem enterNamed_cons_some {e : Entry α} (found : entries.find? (·.name = name) = some e)
    (entered : e.enter v a = some a') :
    enterNamed entries ((name, v) :: values) a = enterNamed entries values a' := by
  simp only [enterNamed, List.foldlM_cons, found, entered]
  rfl

theorem asSection_of_entries? {usual : α} (table : v.entries? = some values) :
    asSection usual entries v = enterNamed entries values usual := by
  cases v with
  | table origin es =>
      cases table
      rfl
  | inlineTable es =>
      cases table
      rfl
  | _ => cases table

end Entering

/-! ## Parts of the settings -/

/-- A part of the settings: how it is entered, how it is written, and what its keys and its tables are. -/
structure Part (α : Type) where
  entries : List (Entry α)
  usual : α
  written : α → Toml.Entries
  keys : List (List String × Kind)
  sections : List (List String)

namespace Part

variable {α β : Type} {P : Part α} {values : Toml.Entries} {v : Toml.Value}

/-- Keys hold what they may hold, and what should be a table is one. -/
structure WellTyped (P : Part α) (values : Toml.Entries) : Prop where
  keys : ∀ k ∈ P.keys, ∀ v ∈ at? k.1 values, k.2.admits v = true
  sections : ∀ path ∈ P.sections, ∀ v ∈ at? path values, v.entries?.isSome = true

instance (P : Part α) (values : Toml.Entries) : Decidable (P.WellTyped values) :=
  decidable_of_iff
    ((∀ k ∈ P.keys, ∀ v ∈ at? k.1 values, k.2.admits v = true) ∧
      ∀ path ∈ P.sections, ∀ v ∈ at? path values, v.entries?.isSome = true)
    ⟨fun h => ⟨h.1, h.2⟩, fun h => ⟨h.keys, h.sections⟩⟩

/-- The part has the values that are given, and the usual ones where none is given. -/
def Holds (P : Part α) (values : Toml.Entries) (a : α) : Prop :=
  ∀ k ∈ P.keys, at? k.1 (P.written a) = (at? k.1 values).or (at? k.1 (P.written P.usual))

/-- Whatever a well-typed table gives, the part comes to hold. -/
def Reads (P : Part α) : Prop :=
  ∀ values, Toml.Entries.Distinct values → P.WellTyped values →
    ∃ a, enterNamed P.entries values P.usual = some a ∧ P.Holds values a

/-- What entering a value does: it sets the keys of its name, and leaves all others alone. -/
def Enters (P : Part α) (e : Entry α) (v : Toml.Value) : Prop :=
  ∀ a, ∃ a', e.enter v a = some a' ∧ ∀ k ∈ P.keys, at? k.1 (P.written a') =
    if k.1.head? = some e.name then (at? k.1 [(e.name, v)]).or (at? k.1 (P.written P.usual))
    else at? k.1 (P.written a)

/-- The run: keys that the values name are set, and the others are as they were. -/
theorem exists_enterNamed (covered : ∀ k ∈ P.keys, ∃ e ∈ P.entries, k.1.head? = some e.name)
    (distinct : (values.map Prod.fst).Nodup)
    (each : ∀ p ∈ values, ∀ e ∈ P.entries, e.name = p.1 → P.Enters e p.2) (a : α) :
    ∃ b, enterNamed P.entries values a = some b ∧ ∀ k ∈ P.keys, ∀ n ∈ k.1.head?, at? k.1 (P.written b) =
      if n ∈ values.map Prod.fst then (at? k.1 values).or (at? k.1 (P.written P.usual))
      else at? k.1 (P.written a) := by
  induction values generalizing a with
  | nil => exact ⟨a, rfl, fun k _ n _ => (if_neg List.not_mem_nil).symm⟩
  | cons first values ih =>
      obtain ⟨name, v⟩ := first
      rw [List.map_cons, List.nodup_cons] at distinct
      have later := ih distinct.2 fun p hp => each p (List.mem_cons_of_mem _ hp)
      have elsewhere {k : List String × Kind} {n : String} (hn : n ∈ k.1.head?) (other : n ≠ name) :
          at? k.1 ((name, v) :: values) = at? k.1 values := by
        refine at?_congr fun m hm => ?_
        have differs : (m == name) = false := by
          rw [Option.mem_unique hm hn]
          simpa using other
        rw [List.lookup_cons, differs]
      have among {n : String} (other : n ≠ name) :
          n ∈ ((name, v) :: values).map Prod.fst ↔ n ∈ values.map Prod.fst := by
        rw [List.map_cons, List.mem_cons, or_iff_right other]
      cases found : P.entries.find? (·.name = name) with
      | none =>
          obtain ⟨b, entered, held⟩ := later a
          refine ⟨b, (enterNamed_cons_none found).trans entered, fun k hk n hn => ?_⟩
          · obtain ⟨e, he, head⟩ := covered k hk
            have named : n = e.name := Option.some.inj (hn.symm.trans head)
            have other : n ≠ name := by
              rintro rfl
              have unknown := List.find?_eq_none.mp found e he
              simp [named] at unknown
            simp only [held k hk n hn, among other, elsewhere hn other]
      | some e =>
          have he : e ∈ P.entries := List.mem_of_find?_eq_some found
          have named : e.name = name := by simpa using List.find?_some found
          obtain ⟨a', entered, set⟩ := each (name, v) List.mem_cons_self e he named a
          obtain ⟨b, entered', held⟩ := later a'
          refine ⟨b, (enterNamed_cons_some found entered).trans entered', fun k hk n hn => ?_⟩
          · have head : k.1.head? = some n := hn
            rw [held k hk n hn, set k hk, head, named]
            by_cases same : n = name
            · -- the name does not come again, so what it is given now stays
              subst same
              have here : at? k.1 ((n, v) :: values) = at? k.1 [(n, v)] := by
                refine at?_congr fun m hm => ?_
                rw [Option.mem_unique hm hn, List.lookup_cons_self, List.lookup_cons_self]
              have given : n ∈ ((n, v) :: values).map Prod.fst := List.mem_cons_self
              rw [if_neg distinct.1, if_pos rfl, if_pos given, here]
            · have differs : ¬ some n = some name := fun h => same (Option.some.inj h)
              simp only [if_neg differs, among same, elsewhere hn same]

/-- Where every value enters its own keys, the part comes to hold what is given. -/
theorem exists_holds (covered : ∀ k ∈ P.keys, ∃ e ∈ P.entries, k.1.head? = some e.name)
    (distinct : values.Distinct) (each : ∀ e ∈ P.entries, ∀ v, values.lookup e.name = some v → P.Enters e v) :
    ∃ a, enterNamed P.entries values P.usual = some a ∧ P.Holds values a := by
  have enters : ∀ p ∈ values, ∀ e ∈ P.entries, e.name = p.1 → P.Enters e p.2 := by
    intro p hp e he named
    exact each e he p.2 (named ▸ lookup_of_mem distinct.names hp)
  obtain ⟨a, entered, held⟩ := exists_enterNamed covered distinct.names enters P.usual
  refine ⟨a, entered, fun k hk => ?_⟩
  obtain ⟨e, he, head⟩ := covered k hk
  rw [held k hk e.name head]
  split
  · rfl
  · rename_i absent
    have nothing : at? k.1 values = at? k.1 [] := by
      refine at?_congr fun n hn => ?_
      rw [← Option.some.inj (head.symm.trans hn), lookup_eq_none absent]
      rfl
    have none : at? k.1 [] = none := by
      cases k.1 with
      | nil => rfl
      | cons n path => cases path <;> rfl
    rw [nothing, none]
    rfl

section Entry

variable {name : String} {decode : Toml.Value → Option β} {set : α → β → α} {x : β}

/-- What is written under other names stays as it is. -/
theorem enters_of (decoded : decode v = some x)
    (others : ∀ a n, n ≠ name → (P.written (set a x)).lookup n = (P.written a).lookup n)
    (own : ∀ a, ∀ k ∈ P.keys, k.1.head? = some name →
      at? k.1 (P.written (set a x)) = (at? k.1 [(name, v)]).or (at? k.1 (P.written P.usual))) :
    P.Enters (entry name decode set) v := by
  intro a
  have entered : (entry name decode set).enter v a = some (set a x) := by
    simp only [entry, decoded, Option.map_some]
  refine ⟨set a x, entered, fun k hk => ?_⟩
  split
  · rename_i here
    exact own a k hk here
  · rename_i elsewhere
    refine at?_congr fun n hn => others a n ?_
    rintro rfl
    exact elsewhere hn

/-- A value of the right kind enters its key. -/
theorem WellTyped.enters {kind : Kind} {form : β → Toml.Value} (typed : P.WellTyped values)
    (found : values.lookup name = some v) (decoded : kind.DecodedBy decode form) (key : ([name], kind) ∈ P.keys)
    (leaf : ∀ k ∈ P.keys, k.1.head? = some name → k.1 = [name])
    (written : ∀ a x, (P.written (set a x)).lookup name = some (form x))
    (others : ∀ a x n, n ≠ name → (P.written (set a x)).lookup n = (P.written a).lookup n) :
    P.Enters (entry name decode set) v := by
  obtain ⟨x, rfl, decoded⟩ := decoded v (typed.keys ([name], kind) key v found)
  refine enters_of decoded (fun a => others a x) fun a k hk here => ?_
  have given : at? [name] [(name, form x)] = some (form x) := List.lookup_cons_self
  rw [leaf k hk here, given]
  exact written a x

/-- A table enters the keys in it, with the usual values for those that it does not set. -/
theorem WellTyped.enters_section {Q : Part β} (typed : P.WellTyped values) (distinct : values.Distinct)
    (found : values.lookup name = some v) (reads : Q.Reads) (table : [name] ∈ P.sections)
    (keys : ∀ k ∈ Q.keys, k.1 ≠ [] ∧ (name :: k.1, k.2) ∈ P.keys)
    (sections : ∀ path ∈ Q.sections, path ≠ [] ∧ name :: path ∈ P.sections)
    (inside : ∀ k ∈ P.keys, k.1.head? = some name → ∃ k' ∈ Q.keys, k'.1 ≠ [] ∧ k.1 = name :: k'.1)
    (usual : (P.written P.usual).lookup name = some (.table .header (Q.written Q.usual)))
    (written : ∀ a x, (P.written (set a x)).lookup name = some (.table .header (Q.written x)))
    (others : ∀ a x n, n ≠ name → (P.written (set a x)).lookup n = (P.written a).lookup n) :
    P.Enters (entry name (asSection Q.usual Q.entries) set) v := by
  obtain ⟨within, is_table⟩ := Option.isSome_iff_exists.mp (typed.sections [name] table v found)
  have through {path : List String} (filled : path ≠ []) : at? (name :: path) values = at? path within := by
    rw [at?_cons filled, found, Option.bind_some, is_table, Option.bind_some]
  have typed_within : Q.WellTyped within := by
    constructor
    · intro k hk w hw
      obtain ⟨filled, key⟩ := keys k hk
      exact typed.keys _ key w ((through filled).trans hw)
    · intro path hpath w hw
      obtain ⟨filled, table⟩ := sections path hpath
      exact typed.sections _ table w ((through filled).trans hw)
  have distinct_within := Toml.Value.distinct_entries? (distinct.of_lookup found) is_table
  obtain ⟨x, entered, holds⟩ := reads within distinct_within typed_within
  have decoded : asSection Q.usual Q.entries v = some x := (asSection_of_entries? is_table).trans entered
  refine enters_of decoded (fun a => others a x) fun a k hk here => ?_
  obtain ⟨k', hk', filled, path⟩ := inside k hk here
  have given : List.lookup name [(name, v)] = some v := List.lookup_cons_self
  have open_header {es : Toml.Entries} :
      ((some (Toml.Value.table .header es)).bind Toml.Value.entries?).bind (at? k'.1) = at? k'.1 es := rfl
  rw [path, at?_cons filled, at?_cons filled, at?_cons filled, written a x, usual, given, open_header, open_header,
    Option.bind_some, is_table, Option.bind_some]
  exact holds k' hk'

end Entry

end Part

end Settings

end Gatehouse
