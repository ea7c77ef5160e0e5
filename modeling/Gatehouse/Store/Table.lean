/-!
# Tables

A table lists its rows by rising number and remembers the greatest number it ever gave, so that a
number is never given twice.
-/

namespace Gatehouse.Store

class Keyed (ρ : Type) where
  key : ρ → Int

export Keyed (key)

/-- The rows of a relation, and the greatest number given so far. -/
structure Table (ρ : Type) where
  rows : List ρ
  lastKey : Int
  deriving Repr, DecidableEq

namespace Table

variable {ρ : Type}

def empty : Table ρ := ⟨[], 0⟩

def any (t : Table ρ) (p : ρ → Bool) : Bool :=
  t.rows.any p

def find? (t : Table ρ) (p : ρ → Bool) : Option ρ :=
  t.rows.find? p

def filter (t : Table ρ) (p : ρ → Bool) : List ρ :=
  t.rows.filter p

def modify (t : Table ρ) (p : ρ → Bool) (f : ρ → ρ) : Table ρ :=
  { t with rows := t.rows.map fun r => if p r then f r else r }

/-- The number of the next new row: one more than any that was given or is there. -/
def nextKey [Keyed ρ] (t : Table ρ) : Int :=
  t.rows.foldl (fun greatest r => max greatest (key r)) t.lastKey + 1

def append [Keyed ρ] (t : Table ρ) (make : Int → ρ) : Table ρ :=
  ⟨t.rows ++ [make t.nextKey], t.nextKey⟩

/-- Puts one row in the place of those of a number, where its own number says. -/
def replace [Keyed ρ] (t : Table ρ) (old : Int) (row : ρ) : Table ρ :=
  let others := t.rows.filter fun r => key r != old
  { t with
    rows := (others.takeWhile fun r => key r < key row)
      ++ row :: others.dropWhile fun r => key r < key row }

@[simp] theorem modify_lastKey (t : Table ρ) (p : ρ → Bool) (f : ρ → ρ) :
    (t.modify p f).lastKey = t.lastKey := rfl

theorem modify_eq_self {t : Table ρ} {p : ρ → Bool} (f : ρ → ρ) (h : t.any p = false) :
    t.modify p f = t := by
  obtain ⟨rows, lastKey⟩ := t
  simp only [any, List.any_eq_false] at h
  simp only [modify, Table.mk.injEq, and_true]
  exact (List.map_congr_left fun r hr => if_neg (h r hr)).trans (List.map_id' rows)

end Table

end Gatehouse.Store
