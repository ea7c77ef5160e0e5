import Gatehouse.Store.Database

/-! # Numbers and columns of tables

A table is ordered when its rows stand by rising number and none exceeds the greatest number given, so
the next number is new. A column is distinct on the rows with a property when no two of them agree in
it. Both are kept by adding a row made from the next number and by changes that leave numbers and the
column alone. A table grows when its rows stay at their places and new ones come behind them: no statement
does anything else.
-/

namespace Gatehouse.Store.Table

variable {ρ α : Type}

/-! ## Rows after a change -/

@[simp] theorem any_eq_true {t : Table ρ} {p : ρ → Bool} :
    t.any p = true ↔ ∃ r ∈ t.rows, p r = true := by
  simp [any]

@[simp] theorem any_eq_false {t : Table ρ} {p : ρ → Bool} :
    t.any p = false ↔ ∀ r ∈ t.rows, p r = false := by
  simp [any]

@[simp] theorem append_rows [Keyed ρ] (t : Table ρ) (make : Int → ρ) :
    (t.append make).rows = t.rows ++ [make t.nextKey] := rfl

@[simp] theorem append_lastKey [Keyed ρ] (t : Table ρ) (make : Int → ρ) :
    (t.append make).lastKey = t.nextKey := rfl

theorem modify_rows (t : Table ρ) (p : ρ → Bool) (f : ρ → ρ) :
    (t.modify p f).rows = t.rows.map fun r => if p r then f r else r := rfl

theorem mem_modify {t : Table ρ} {p : ρ → Bool} {f : ρ → ρ} {s : ρ} :
    s ∈ (t.modify p f).rows ↔ ∃ r ∈ t.rows, (if p r then f r else r) = s := by
  simp [modify_rows]

theorem modify_congr {t : Table ρ} {p q : ρ → Bool} (f : ρ → ρ) (h : ∀ r ∈ t.rows, p r = q r) :
    t.modify p f = t.modify q f := by
  obtain ⟨rows, lastKey⟩ := t
  simp only [modify, Table.mk.injEq, and_true]
  exact List.map_congr_left fun r hr => by rw [h r hr]

theorem any_modify {t : Table ρ} {p q : ρ → Bool} {f : ρ → ρ} (h : ∀ r, q (f r) = q r) :
    (t.modify p f).any q = t.any q := by
  simp only [any, modify_rows, List.any_map]
  congr 1
  funext r
  simp only [Function.comp]
  split
  · exact h r
  · rfl

/-- A change that meets one row only. -/
theorem modify_one {t : Table ρ} {earlier later : List ρ} {r : ρ} {p : ρ → Bool} (f : ρ → ρ)
    (rows_eq : t.rows = earlier ++ r :: later) (before : ∀ s ∈ earlier, p s = false)
    (behind : ∀ s ∈ later, p s = false) (here : p r = true) :
    t.modify p f = ⟨earlier ++ f r :: later, t.lastKey⟩ := by
  have kept : ∀ others : List ρ, (∀ s ∈ others, p s = false) →
      others.map (fun s => if p s then f s else s) = others := by
    intro others none_met
    rw [List.map_congr_left fun s hs => if_neg (by rw [none_met s hs]; decide)]
    exact List.map_id' others
  simp only [modify, rows_eq, List.map_append, List.map_cons, kept earlier before, kept later behind,
    here, if_true]

/-- The only row with a property is the one that is found. -/
theorem find?_eq_some_of_unique {t : Table ρ} {p : ρ → Bool} {r : ρ} (hr : r ∈ t.rows) (hp : p r = true)
    (unique : ∀ s ∈ t.rows, p s = true → s = r) : t.find? p = some r := by
  cases h : t.find? p with
  | none =>
      have hn := List.find?_eq_none.mp h r hr
      exact absurd hp hn
  | some s =>
      have hs := unique s (List.mem_of_find?_eq_some h) (List.find?_some h)
      rw [hs]

theorem find?_eq_none {t : Table ρ} {p : ρ → Bool} :
    t.find? p = none ↔ ∀ r ∈ t.rows, p r = false := by
  simp [find?]

/-! ## Order -/

/-- Rows stand by rising number, and none exceeds the greatest number given. -/
structure Ordered [Keyed ρ] (t : Table ρ) : Prop where
  rising : t.rows.Pairwise fun r s => key r < key s
  le_lastKey : ∀ r ∈ t.rows, key r ≤ t.lastKey

section Order

variable [Keyed ρ] {t : Table ρ}

private theorem foldl_max_eq (rows : List ρ) (greatest : Int) (h : ∀ r ∈ rows, key r ≤ greatest) :
    rows.foldl (fun greatest r => max greatest (key r)) greatest = greatest := by
  induction rows with
  | nil => rfl
  | cons r rows ih =>
      have hr : key r ≤ greatest := h r List.mem_cons_self
      rw [List.foldl_cons, Int.max_eq_left hr]
      exact ih fun s hs => h s (List.mem_cons_of_mem r hs)

theorem Ordered.nextKey_eq (h : t.Ordered) : t.nextKey = t.lastKey + 1 := by
  rw [nextKey, foldl_max_eq t.rows t.lastKey h.le_lastKey]

/-- The next number is greater than any that is there. -/
theorem Ordered.key_lt_nextKey (h : t.Ordered) {r : ρ} (hr : r ∈ t.rows) : key r < t.nextKey := by
  have hle := h.le_lastKey r hr
  rw [h.nextKey_eq]
  omega

theorem Ordered.key_ne_nextKey (h : t.Ordered) {r : ρ} (hr : r ∈ t.rows) : key r ≠ t.nextKey :=
  Int.ne_of_lt (h.key_lt_nextKey hr)

private theorem eq_of_key_eq {rows : List ρ} (h : rows.Pairwise fun r s => key r < key s) {r s : ρ}
    (hr : r ∈ rows) (hs : s ∈ rows) (he : key r = key s) : r = s := by
  induction h with
  | nil => cases hr
  | cons first _ ih =>
      rcases List.mem_cons.mp hr with rfl | hr' <;> rcases List.mem_cons.mp hs with rfl | hs'
      · rfl
      · have := first s hs'
        omega
      · have := first r hr'
        omega
      · exact ih hr' hs'

theorem Ordered.eq_of_key_eq (h : t.Ordered) {r s : ρ} (hr : r ∈ t.rows) (hs : s ∈ t.rows)
    (he : key r = key s) : r = s :=
  Table.eq_of_key_eq h.rising hr hs he

/-- The other rows have other numbers. -/
theorem Ordered.key_ne_of_rows_eq (h : t.Ordered) {earlier later : List ρ} {r : ρ}
    (rows_eq : t.rows = earlier ++ r :: later) :
    (∀ s ∈ earlier, key s ≠ key r) ∧ ∀ s ∈ later, key s ≠ key r := by
  have rising := h.rising
  rw [rows_eq, List.pairwise_append] at rising
  obtain ⟨_, behind, before⟩ := rising
  constructor
  · intro s hs
    exact Int.ne_of_lt (before s hs r List.mem_cons_self)
  · intro s hs
    exact Int.ne_of_gt (List.rel_of_pairwise_cons behind hs)

theorem ordered_empty : (empty : Table ρ).Ordered :=
  ⟨List.Pairwise.nil, by simp [empty]⟩

theorem Ordered.append (h : t.Ordered) (make : Int → ρ) (hk : key (make t.nextKey) = t.nextKey) :
    (t.append make).Ordered := by
  constructor
  · rw [append_rows, List.pairwise_append]
    refine ⟨h.rising, List.pairwise_singleton _ _, ?_⟩
    intro r hr s hs
    rw [List.mem_singleton.mp hs, hk]
    exact h.key_lt_nextKey hr
  · intro r hr
    rw [append_rows, List.mem_append, List.mem_singleton] at hr
    rw [append_lastKey]
    rcases hr with hr | rfl
    · exact Int.le_of_lt (h.key_lt_nextKey hr)
    · exact Int.le_of_eq hk

theorem Ordered.modify (h : t.Ordered) (p : ρ → Bool) {f : ρ → ρ} (hf : ∀ r, key (f r) = key r) :
    (t.modify p f).Ordered := by
  have same : ∀ r, key (if p r then f r else r) = key r := by
    intro r
    split
    · exact hf r
    · rfl
  constructor
  · rw [modify_rows, List.pairwise_map]
    exact h.rising.imp fun {r s} hlt => by rw [same r, same s]; exact hlt
  · intro s hs
    obtain ⟨r, hr, rfl⟩ := mem_modify.mp hs
    rw [same r, modify_lastKey]
    exact h.le_lastKey r hr

end Order

/-! ## Distinct columns -/

/-- No two rows with a property agree in a column. -/
def Distinct (t : Table ρ) (p : ρ → Prop) (column : ρ → α) : Prop :=
  ∀ r ∈ t.rows, ∀ s ∈ t.rows, p r → p s → column r = column s → r = s

theorem distinct_empty (p : ρ → Prop) (column : ρ → α) : (empty : Table ρ).Distinct p column := by
  intro r hr
  cases hr

section Columns

variable {t : Table ρ} {p : ρ → Prop} {column : ρ → α}

/-- A new row keeps a column distinct when no row with the property agrees with it. -/
theorem Distinct.append [Keyed ρ] (h : t.Distinct p column) (make : Int → ρ)
    (new : ∀ r ∈ t.rows, p r → column r ≠ column (make t.nextKey)) :
    (t.append make).Distinct p column := by
  intro r hr s hs pr ps he
  rw [append_rows, List.mem_append, List.mem_singleton] at hr hs
  rcases hr with hr | rfl <;> rcases hs with hs | rfl
  · exact h r hr s hs pr ps he
  · exact absurd he (new r hr pr)
  · exact absurd he.symm (new s hs ps)
  · rfl

/-- A change keeps a column distinct when it leaves the column alone and gives no row the property. -/
theorem Distinct.modify (h : t.Distinct p column) (q : ρ → Bool) {f : ρ → ρ}
    (hp : ∀ r, p (f r) → p r) (hc : ∀ r, column (f r) = column r) :
    (t.modify q f).Distinct p column := by
  have keepsColumn : ∀ r, column (if q r then f r else r) = column r := by
    intro r
    split
    · exact hc r
    · rfl
  have givesNone : ∀ r, p (if q r then f r else r) → p r := by
    intro r hr
    split at hr
    · exact hp r hr
    · exact hr
  intro r' hr' s' hs' pr ps he
  obtain ⟨r, hr, rfl⟩ := mem_modify.mp hr'
  obtain ⟨s, hs, rfl⟩ := mem_modify.mp hs'
  rw [keepsColumn, keepsColumn] at he
  rw [h r hr s hs (givesNone r pr) (givesNone s ps) he]

end Columns

/-! ## Growth -/

/-- A row has a greater number than all of a table. -/
def Newer [Keyed ρ] (t : Table ρ) (r : ρ) : Prop :=
  ∀ s ∈ t.rows, key s < key r

/-- Every row stays at its place, changed as one relation allows, and behind them stand new ones. -/
structure Grows (stays : ρ → ρ → Prop) (new : ρ → Prop) (t t' : Table ρ) : Prop where
  kept : ∀ (i : Nat) r, t.rows[i]? = some r → ∃ r', t'.rows[i]? = some r' ∧ stays r r'
  added : ∀ (i : Nat) r', t.rows[i]? = none → t'.rows[i]? = some r' → new r'

section Growth

variable {stays stays' stays'' : ρ → ρ → Prop} {new new' new'' : ρ → Prop} {t t' t'' : Table ρ}

theorem grows_refl (h : ∀ r, stays r r) (t : Table ρ) : t.Grows stays new t := by
  constructor
  · intro i r hr
    exact ⟨r, hr, h r⟩
  · intro i r' hn hr'
    rw [hn] at hr'
    cases hr'

theorem grows_modify_of_mem (p : ρ → Bool) {f : ρ → ρ} (same : ∀ r, stays r r) {t : Table ρ}
    (changed : ∀ r ∈ t.rows, p r = true → stays r (f r)) : t.Grows stays new (t.modify p f) := by
  constructor
  · intro i r hr
    refine ⟨if p r then f r else r, ?_, ?_⟩
    · rw [modify_rows, List.getElem?_map, hr]
      rfl
    · split
      · rename_i hp
        exact changed r (List.mem_of_getElem? hr) hp
      · exact same r
  · intro i r' hn hr'
    rw [modify_rows, List.getElem?_map, hn] at hr'
    cases hr'

theorem grows_modify (p : ρ → Bool) {f : ρ → ρ} (same : ∀ r, stays r r)
    (changed : ∀ r, p r = true → stays r (f r)) (t : Table ρ) : t.Grows stays new (t.modify p f) :=
  grows_modify_of_mem p same fun r _ => changed r

theorem grows_append [Keyed ρ] (make : Int → ρ) (same : ∀ r, stays r r) (t : Table ρ)
    (h : new (make t.nextKey)) : t.Grows stays new (t.append make) := by
  constructor
  · intro i r hr
    refine ⟨r, ?_, same r⟩
    obtain ⟨hi, _⟩ := List.getElem?_eq_some_iff.mp hr
    rw [append_rows, List.getElem?_append_left hi]
    exact hr
  · intro i r' hn hr'
    have beyond := List.getElem?_eq_none_iff.mp hn
    rw [append_rows, List.getElem?_append_right beyond] at hr'
    have last := List.mem_of_getElem? hr'
    rw [List.mem_singleton.mp last]
    exact h

/-- One growth after another, with what the two relations come to together. -/
theorem Grows.comp (h : t.Grows stays new t') (h' : t'.Grows stays' new' t'')
    (old : ∀ r r' r'', stays r r' → stays' r' r'' → stays'' r r'')
    (first : ∀ r r', new r → stays' r r' → new'' r') (second : ∀ r, new' r → new'' r) :
    t.Grows stays'' new'' t'' := by
  constructor
  · intro i r hr
    obtain ⟨r', hr', hs⟩ := h.kept i r hr
    obtain ⟨r'', hr'', hs'⟩ := h'.kept i r' hr'
    exact ⟨r'', hr'', old r r' r'' hs hs'⟩
  · intro i r'' hn hr''
    cases hm : t'.rows[i]? with
    | none => exact second r'' (h'.added i r'' hm hr'')
    | some r' =>
        obtain ⟨s, hs, stay⟩ := h'.kept i r' hm
        rw [hr''] at hs
        cases hs
        exact first r' r'' (h.added i r' hn hm) stay

theorem Grows.imp (h : t.Grows stays new t') (old : ∀ r r', stays r r' → stays' r r')
    (fresh : ∀ r, new r → new' r) : t.Grows stays' new' t' := by
  constructor
  · intro i r hr
    obtain ⟨r', hr', hs⟩ := h.kept i r hr
    exact ⟨r', hr', old r r' hs⟩
  · intro i r' hn hr'
    exact fresh r' (h.added i r' hn hr')

/-- What is known of new rows in two ways is known of them together. -/
theorem Grows.and (h : t.Grows stays new t') (h' : t.Grows stays' new' t') :
    t.Grows stays (fun r => new r ∧ new' r) t' :=
  ⟨h.kept, fun i r' hn hr' => ⟨h.added i r' hn hr', h'.added i r' hn hr'⟩⟩

/-- Where rows keep their numbers and stand by rising number, the new ones are newer. -/
theorem Grows.newer [Keyed ρ] (h : t.Grows stays new t') (ordered : t'.Ordered)
    (same : ∀ r r', stays r r' → key r' = key r) : t.Grows stays t.Newer t' := by
  refine ⟨h.kept, ?_⟩
  intro i r' hn hr' s hs
  obtain ⟨j, hj⟩ := List.getElem?_of_mem hs
  obtain ⟨s', hs', stay⟩ := h.kept j s hj
  obtain ⟨hji, hs'⟩ := List.getElem?_eq_some_iff.mp hs'
  obtain ⟨hi, hr'⟩ := List.getElem?_eq_some_iff.mp hr'
  have behind : j < i := by
    have inside := (List.getElem?_eq_some_iff.mp hj).1
    have outside := List.getElem?_eq_none_iff.mp hn
    omega
  have rising := List.pairwise_iff_getElem.mp ordered.rising j i hji hi behind
  rw [hs', hr', same s s' stay] at rising
  exact rising

theorem Grows.mem (h : t.Grows stays new t') {r : ρ} (hr : r ∈ t.rows) :
    ∃ r' ∈ t'.rows, stays r r' := by
  obtain ⟨i, hi⟩ := List.getElem?_of_mem hr
  obtain ⟨r', hr', hs⟩ := h.kept i r hi
  exact ⟨r', List.mem_of_getElem? hr', hs⟩

/-- A row that is there was there before, or is new. -/
theorem Grows.mem_back (h : t.Grows stays new t') {r' : ρ} (hr' : r' ∈ t'.rows) :
    (∃ r ∈ t.rows, stays r r') ∨ new r' := by
  obtain ⟨i, hi⟩ := List.getElem?_of_mem hr'
  cases hn : t.rows[i]? with
  | none => exact Or.inr (h.added i r' hn hi)
  | some r =>
      obtain ⟨s, hs, stay⟩ := h.kept i r hn
      rw [hi] at hs
      cases hs
      exact Or.inl ⟨r, List.mem_of_getElem? hn, stay⟩

/-- What rows keep and no new row has is true of a row exactly when it was. -/
theorem Grows.exists_iff (h : t.Grows stays new t') {p : ρ → Prop} (old : ∀ r r', stays r r' → (p r' ↔ p r))
    (fresh : ∀ r, new r → ¬ p r) : (∃ r ∈ t'.rows, p r) ↔ ∃ r ∈ t.rows, p r := by
  constructor
  · rintro ⟨r', hr', hp⟩
    rcases h.mem_back hr' with ⟨r, hr, stay⟩ | added
    · exact ⟨r, hr, (old r r' stay).mp hp⟩
    · exact absurd hp (fresh r' added)
  · rintro ⟨r, hr, hp⟩
    obtain ⟨r', hr', stay⟩ := h.mem hr
    exact ⟨r', hr', (old r r' stay).mpr hp⟩

end Growth

end Gatehouse.Store.Table
