import Gatehouse.Toml.Reader
import Mathlib.Data.List.Nodup

/-! # Names that a document gives

A document that is read gives no name twice, and neither does any table in it, at whatever depth and in whichever way
it came about. Whether a header opens a table, a dotted name makes one or a line holds one, an entry is put under a
name that is not there yet, or takes the place of the one that is.
-/

namespace Gatehouse.Toml

/-- No table in the value gives a name twice. -/
inductive Value.Distinct : Value → Prop
  | string (s : String) : Distinct (.string s)
  | integer (n : Int) : Distinct (.integer n)
  | boolean (b : Bool) : Distinct (.boolean b)
  | float : Distinct .float
  | instant : Distinct .instant
  | array {items : List Value} (values : ∀ v ∈ items, Distinct v) : Distinct (.array items)
  | inlineTable {entries : List (String × Value)} (names : (entries.map Prod.fst).Nodup)
      (values : ∀ e ∈ entries, Distinct e.2) : Distinct (.inlineTable entries)
  | table {origin : Origin} {entries : List (String × Value)} (names : (entries.map Prod.fst).Nodup)
      (values : ∀ e ∈ entries, Distinct e.2) : Distinct (.table origin entries)
  | tables {all : List (List (String × Value))} (names : ∀ entries ∈ all, (entries.map Prod.fst).Nodup)
      (values : ∀ entries ∈ all, ∀ e ∈ entries, Distinct e.2) : Distinct (.tables all)

/-- No name is given twice, by these entries and by the tables in their values. -/
structure Entries.Distinct (entries : Entries) : Prop where
  names : (entries.map Prod.fst).Nodup
  values : ∀ e ∈ entries, e.2.Distinct

namespace Value

variable {origin : Origin} {entries : Entries} {all : List Entries}

theorem distinct_table : (Value.table origin entries).Distinct ↔ Entries.Distinct entries := by
  constructor
  · rintro ⟨⟩
    constructor <;> assumption
  · exact fun h => .table h.names h.values

theorem distinct_inlineTable : (Value.inlineTable entries).Distinct ↔ Entries.Distinct entries := by
  constructor
  · rintro ⟨⟩
    constructor <;> assumption
  · exact fun h => .inlineTable h.names h.values

theorem distinct_tables : (Value.tables all).Distinct ↔ ∀ entries ∈ all, Entries.Distinct entries := by
  constructor
  · intro h
    cases h with
    | tables names values => exact fun es hes => ⟨names es hes, values es hes⟩
  · exact fun h => .tables (fun es hes => (h es hes).names) fun es hes => (h es hes).values

end Value

namespace Entries

variable {entries entries' : Entries} {name : String} {v : Value}

theorem distinct_nil : Distinct [] where
  names := List.nodup_nil
  values := fun _ h => absurd h List.not_mem_nil

theorem mem_of_lookup (h : entries.lookup name = some v) : (name, v) ∈ entries := by
  obtain ⟨before, after, rfl, -⟩ := List.lookup_eq_some_iff.mp h
  exact List.mem_append_right before List.mem_cons_self

theorem Distinct.of_lookup (h : entries.Distinct) (found : entries.lookup name = some v) : v.Distinct :=
  h.values (name, v) (mem_of_lookup found)

/-! ## Changes of a table -/

theorem mem_put {e : String × Value} (h : e ∈ put name v entries) : e = (name, v) ∨ e ∈ entries := by
  induction entries with
  | nil => exact Or.inl (List.mem_singleton.mp h)
  | cons first entries ih =>
      obtain ⟨n, w⟩ := first
      rw [put] at h
      split at h
      · rename_i same
        rcases List.mem_cons.mp h with rfl | later
        · exact Or.inl (by rw [same])
        · exact Or.inr (List.mem_cons_of_mem _ later)
      · rcases List.mem_cons.mp h with rfl | later
        · exact Or.inr List.mem_cons_self
        · exact (ih later).imp_right (List.mem_cons_of_mem _)

theorem mem_names_put {n : String} (h : n ∈ (put name v entries).map Prod.fst) :
    n = name ∨ n ∈ entries.map Prod.fst := by
  obtain ⟨e, he, rfl⟩ := List.mem_map.mp h
  rcases mem_put he with rfl | old
  · exact Or.inl rfl
  · exact Or.inr (List.mem_map_of_mem old)

theorem Distinct.put (h : entries.Distinct) (value : v.Distinct) : (put name v entries).Distinct where
  names := by
    have names := h.names
    clear h
    induction entries with
    | nil => exact List.nodup_singleton name
    | cons first entries ih =>
        obtain ⟨n, w⟩ := first
        rw [List.map_cons, List.nodup_cons] at names
        rw [Entries.put]
        split
        · rw [List.map_cons, List.nodup_cons]
          exact names
        · rename_i other
          rw [List.map_cons, List.nodup_cons]
          refine ⟨fun among => ?_, ih names.2⟩
          rcases mem_names_put among with same | old
          · exact other same
          · exact names.1 old
  values := by
    intro e he
    rcases mem_put he with rfl | old
    · exact value
    · exact h.values e old

theorem Distinct.append (h : entries.Distinct) (value : v.Distinct) (new : entries.lookup name = none) :
    Distinct (entries ++ [(name, v)]) where
  names := by
    have unnamed : name ∉ entries.map Prod.fst := by
      intro among
      obtain ⟨e, he, rfl⟩ := List.mem_map.mp among
      have differs := List.lookup_eq_none_iff.mp new e he
      simp at differs
    rw [List.map_append, List.nodup_append]
    refine ⟨h.names, List.nodup_singleton name, ?_⟩
    rintro n hn _ hm rfl
    rw [List.map_cons, List.map_nil, List.mem_singleton] at hm
    subst hm
    exact unnamed hn
  values := by
    intro e he
    rcases List.mem_append.mp he with old | added
    · exact h.values e old
    · rw [List.mem_singleton.mp added]
      exact value

/-- What keeps the names of one table distinct keeps those of the tables on the way to it distinct. -/
theorem Distinct.alter {dotted : Bool} {change : Origin → Entries → Option Entries}
    (keeps : ∀ origin es es', Distinct es → change origin es = some es' → Distinct es') {path : List String}
    {origin : Origin} (h : entries.Distinct) (changed : alter dotted change path origin entries = some entries') :
    entries'.Distinct := by
  induction path generalizing origin entries entries' with
  | nil => exact keeps origin entries entries' h changed
  | cons name path ih =>
      rw [Entries.alter] at changed
      split at changed
      · obtain ⟨child, made, rfl⟩ := Option.map_eq_some_iff.mp changed
        exact h.put (Value.distinct_table.mpr (ih distinct_nil made))
      · rename_i found
        split at changed
        · cases changed
        · obtain ⟨child, made, rfl⟩ := Option.map_eq_some_iff.mp changed
          exact h.put (Value.distinct_table.mpr (ih (Value.distinct_table.mp (h.of_lookup found)) made))
      · rename_i all found
        have each := Value.distinct_tables.mp (h.of_lookup found)
        split at changed
        · cases changed
        · rename_i last before parts
          have member : ∀ es ∈ last :: before, Distinct es := by
            rw [← parts]
            exact fun es hes => each es (List.mem_reverse.mp hes)
          obtain ⟨last', made, rfl⟩ := Option.map_eq_some_iff.mp changed
          refine h.put (Value.distinct_tables.mpr fun es hes => ?_)
          rcases List.mem_cons.mp (List.mem_reverse.mp hes) with rfl | old
          · exact ih (member last List.mem_cons_self) made
          · exact member es (List.mem_cons_of_mem last old)
      · cases changed

theorem Distinct.insert {viaDots : Bool} {origin : Origin} (h : entries.Distinct) (value : v.Distinct)
    (inserted : insert viaDots name v origin entries = some entries') : entries'.Distinct := by
  rw [Entries.insert] at inserted
  split at inserted
  · rename_i free
    cases inserted
    exact h.append value (Option.isNone_iff_eq_none.mp free.2)
  · cases inserted

theorem Distinct.assign {path : List String} {origin : Origin} (h : entries.Distinct) (value : v.Distinct)
    (assigned : assign path name v origin entries = some entries') : entries'.Distinct :=
  h.alter (fun _ _ _ hes inserted => hes.insert value inserted) assigned

theorem Distinct.assignUnder {header path : List String} (h : entries.Distinct) (value : v.Distinct)
    (assigned : assignUnder header path name v entries = some entries') : entries'.Distinct :=
  h.alter (fun _ _ _ hes under => hes.assign value under) assigned

theorem Distinct.openTable {path : List String} (h : entries.Distinct)
    (opened : openTable path name entries = some entries') : entries'.Distinct := by
  refine h.alter (fun _ es es' hes change => ?_) opened
  split at change
  · cases change
    exact hes.put (Value.distinct_table.mpr distinct_nil)
  · rename_i child found
    cases change
    exact hes.put (Value.distinct_table.mpr (Value.distinct_table.mp (hes.of_lookup found)))
  · cases change

theorem Distinct.openNext {path : List String} (h : entries.Distinct)
    (opened : openNext path name entries = some entries') : entries'.Distinct := by
  refine h.alter (fun _ es es' hes change => ?_) opened
  split at change
  · cases change
    refine hes.put (Value.distinct_tables.mpr fun es hes => ?_)
    rw [List.mem_singleton.mp hes]
    exact distinct_nil
  · rename_i all found
    cases change
    refine hes.put (Value.distinct_tables.mpr fun es hes' => ?_)
    rcases List.mem_append.mp hes' with old | new
    · exact Value.distinct_tables.mp (hes.of_lookup found) es old
    · rw [List.mem_singleton.mp new]
      exact distinct_nil
  · cases change

end Entries

/-! ## Reading -/

section Reading

variable {cs rest : List Char} {v : Value}

theorem distinct_based? {base : Nat} {isDigit : Char → Bool} (h : based? base isDigit cs = some (v, rest)) :
    v.Distinct := by
  obtain ⟨⟨ds, after⟩, -, h⟩ := Option.bind_eq_some_iff.mp h
  obtain ⟨-, same⟩ := Option.ite_none_right_eq_some.mp h
  cases same
  exact .integer _

theorem distinct_decimalInteger? (h : decimalInteger? cs = some (v, rest)) : v.Distinct := by
  rw [decimalInteger?] at h
  obtain ⟨⟨ds, after⟩, -, h⟩ := Option.bind_eq_some_iff.mp h
  obtain ⟨-, same⟩ := Option.ite_none_right_eq_some.mp h
  cases same
  exact .integer _

theorem distinct_integer? (h : integer? cs = some (v, rest)) : v.Distinct := by
  rw [integer?.eq_def] at h
  split at h
  · exact distinct_based? h
  · exact distinct_based? h
  · exact distinct_based? h
  · exact distinct_decimalInteger? h

theorem distinct_float? (h : float? cs = some (v, rest)) : v.Distinct := by
  rw [float?] at h
  generalize sign cs = signed at h
  obtain ⟨isNegative, cs⟩ := signed
  simp only at h
  split at h
  · cases h
    exact .float
  · cases h
    exact .float
  · obtain ⟨⟨whole, after⟩, -, h⟩ := Option.bind_eq_some_iff.mp h
    have bounded {tail : List Char} {exponent : Int} {after : List Char}
        (h : (if isNegative = true ∨
            Text.Decimal.inRange (Text.Decimal.value (whole ++ tail)) (exponent - tail.length) = true then
          some (Value.float, after) else none) = some (v, rest)) : v.Distinct := by
      obtain ⟨-, same⟩ := Option.ite_none_right_eq_some.mp h
      cases same
      exact .float
    simp only at h
    split at h
    · exact bounded h
    · split at h
      · cases h
      · split at h
        · exact bounded h
        · exact bounded h

theorem distinct_instant? (h : instant? cs = some (v, rest)) : v.Distinct := by
  rw [instant?] at h
  split at h
  · obtain ⟨after, -, same⟩ := Option.map_eq_some_iff.mp h
    cases same
    exact .instant
  · simp only at h
    split at h
    · cases h
      exact .instant
    · cases h
      exact .instant

theorem distinct_scalarValue? (h : scalarValue? cs = some (v, rest)) : v.Distinct := by
  rw [scalarValue?.eq_def] at h
  split at h
  · cases h
  split at h
  · obtain ⟨⟨s, after⟩, -, same⟩ := Option.map_eq_some_iff.mp h
    cases same
    exact .string s
  split at h
  · obtain ⟨after, -, same⟩ := Option.map_eq_some_iff.mp h
    cases same
    exact .boolean true
  split at h
  · obtain ⟨after, -, same⟩ := Option.map_eq_some_iff.mp h
    cases same
    exact .boolean false
  · simp only [Option.orElse_eq_orElse, Option.orElse_eq_or, Option.or_eq_some_iff] at h
    rcases h with instant | ⟨-, float | ⟨-, integer⟩⟩
    · exact distinct_instant? instant
    · exact distinct_float? float
    · exact distinct_integer? integer

/-- Values, items and entries are read with less and less fuel, so the induction is for all of them at once. -/
theorem distinct_of_fuel (fuel : Nat) :
    (∀ depth cs v rest, value? fuel depth cs = some (v, rest) → v.Distinct) ∧
      (∀ depth cs items rest, items? fuel depth cs = some (items, rest) → ∀ v ∈ items, Value.Distinct v) ∧
      ∀ depth before cs entries rest, Entries.Distinct before →
        entries? fuel depth before cs = some (entries, rest) → Entries.Distinct entries := by
  induction fuel with
  | zero =>
      refine ⟨?_, ?_, ?_⟩
      · rintro _ _ _ _ ⟨⟩
      · rintro _ _ _ _ ⟨⟩
      · rintro _ _ _ _ _ _ ⟨⟩
  | succ fuel ih =>
      obtain ⟨values, items, entries⟩ := ih
      refine ⟨?value, ?items, ?entries⟩
      case value =>
        intro depth cs v rest h
        rw [value?.eq_def] at h
        simp only at h
        split at h
        · cases h
        split at h
        · obtain ⟨-, h⟩ := Option.ite_none_right_eq_some.mp h
          obtain ⟨⟨vs, after⟩, read, same⟩ := Option.map_eq_some_iff.mp h
          cases same
          exact .array (items _ _ _ _ read)
        split at h
        · obtain ⟨-, h⟩ := Option.ite_none_right_eq_some.mp h
          split at h
          · cases h
          split at h
          · cases h
            exact Value.distinct_inlineTable.mpr Entries.distinct_nil
          · obtain ⟨⟨es, after⟩, read, same⟩ := Option.map_eq_some_iff.mp h
            cases same
            exact Value.distinct_inlineTable.mpr (entries _ _ _ _ _ Entries.distinct_nil read)
        · exact distinct_scalarValue? h
      case items =>
        intro depth cs vs rest h
        rw [items?.eq_def] at h
        simp only at h
        split at h
        · cases h
          exact fun _ hv => absurd hv List.not_mem_nil
        · obtain ⟨⟨v, after⟩, first, h⟩ := Option.bind_eq_some_iff.mp h
          simp only at h
          split at h
          · obtain ⟨⟨others, after⟩, later, same⟩ := Option.bind_eq_some_iff.mp h
            cases same
            intro w hw
            rcases List.mem_cons.mp hw with rfl | hw
            · exact values _ _ _ _ first
            · exact items _ _ _ _ later w hw
          · cases h
            intro w hw
            rw [List.mem_singleton.mp hw]
            exact values _ _ _ _ first
          · cases h
      case entries =>
        intro depth before cs es rest distinct h
        rw [entries?.eq_def] at h
        obtain ⟨⟨path, name, after_name⟩, -, h⟩ := Option.bind_eq_some_iff.mp h
        obtain ⟨after_sign, -, h⟩ := Option.bind_eq_some_iff.mp h
        obtain ⟨⟨v, after⟩, read, h⟩ := Option.bind_eq_some_iff.mp h
        obtain ⟨es', assigned, h⟩ := Option.bind_eq_some_iff.mp h
        have distinct' := distinct.assign (values _ _ _ _ read) assigned
        split at h
        · exact entries _ _ _ _ _ distinct' h
        · obtain ⟨-, same⟩ := Option.ite_none_right_eq_some.mp h
          cases same
          exact distinct'
        · cases h

theorem distinct_value? {fuel depth : Nat} (h : value? fuel depth cs = some (v, rest)) : v.Distinct :=
  (distinct_of_fuel fuel).1 depth cs v rest h

theorem distinct_lines? {fuel : Nat} {header : List String} {document entries : Entries}
    (distinct : document.Distinct) (h : lines? fuel header document cs = some entries) : entries.Distinct := by
  induction fuel generalizing header document cs with
  | zero => cases h
  | succ fuel ih =>
      rw [lines?] at h
      split at h
      · cases h
        exact distinct
      split at h
      · exact ih distinct h
      split at h
      · simp only at h
        split at h
        · obtain ⟨document', opened, h⟩ := Option.bind_eq_some_iff.mp h
          obtain ⟨after, -, h⟩ := Option.bind_eq_some_iff.mp h
          exact ih (distinct.openNext opened) h
        · obtain ⟨document', opened, h⟩ := Option.bind_eq_some_iff.mp h
          obtain ⟨after, -, h⟩ := Option.bind_eq_some_iff.mp h
          exact ih (distinct.openTable opened) h
      · obtain ⟨⟨path, name, v, after⟩, assignment, h⟩ := Option.bind_eq_some_iff.mp h
        obtain ⟨document', assigned, h⟩ := Option.bind_eq_some_iff.mp h
        obtain ⟨_, -, h⟩ := Option.bind_eq_some_iff.mp h
        refine ih (distinct.assignUnder ?_ assigned) h
        obtain ⟨⟨path', name', after_name⟩, -, assignment⟩ := Option.bind_eq_some_iff.mp assignment
        obtain ⟨after_sign, -, assignment⟩ := Option.bind_eq_some_iff.mp assignment
        obtain ⟨⟨v', after_value⟩, read, same⟩ := Option.bind_eq_some_iff.mp assignment
        cases same
        exact distinct_value? read

/-- A document that is read gives no name twice. -/
theorem distinct_read {document : Entries} (h : read cs = some document) : document.Distinct :=
  distinct_lines? Entries.distinct_nil h

end Reading

end Gatehouse.Toml
