import Gatehouse.Time.Calendar

/-!
# Instants

An instant counts seconds from the start of 1970 and nanoseconds within the second. A leap second is
told by a nanosecond count of a thousand million or more: it belongs to the second before it.
Instants reach from the first day of the year -262143 to the last day of the year 262142.
-/

namespace Gatehouse.Time

/-- A point in time, to the nanosecond. -/
@[ext] structure Instant where
  seconds : Int
  nanos : Nat
  deriving Repr, DecidableEq

namespace Instant

abbrev second : Nat := 1000000000

abbrev day : Int := 86400

def epoch : Instant := ⟨0, 0⟩

def firstSecond : Int := -8334601228800

def lastSecond : Int := 8210266876799

def Representable (t : Instant) : Prop :=
  firstSecond ≤ t.seconds ∧ t.seconds ≤ lastSecond ∧ t.nanos < 2 * second

instance (t : Instant) : Decidable t.Representable := by
  unfold Representable
  infer_instance

/--
An instant that can be: a leap second is the last second of its minute, and no second is longer than
two. Of the instants the calendar can name, these are just those a text can give
(`Rfc3339.exists_readLoose_iff`): a sixtieth second is the only leap second that is read, and it stays the
last of a minute when an offset of whole minutes is taken from it. Moving by days and cutting to
microseconds lead to no other (`Proper.addDays?`, `Proper.toMicros`), and a clock counts no leap
seconds, so that what it shows is one too.
-/
structure Proper (t : Instant) : Prop where
  nanos_lt : t.nanos < 2 * second
  leap : second ≤ t.nanos → t.seconds % 60 = 59

protected def le (s t : Instant) : Prop :=
  s.seconds < t.seconds ∨ (s.seconds = t.seconds ∧ s.nanos ≤ t.nanos)

instance : LE Instant := ⟨Instant.le⟩

instance (s t : Instant) : Decidable (s ≤ t) :=
  inferInstanceAs (Decidable (_ ∨ _))

theorem le_def (s t : Instant) :
    s ≤ t ↔ s.seconds < t.seconds ∨ (s.seconds = t.seconds ∧ s.nanos ≤ t.nanos) :=
  Iff.rfl

theorem le_refl (t : Instant) : t ≤ t :=
  Or.inr ⟨rfl, Nat.le_refl _⟩

def toMicros (t : Instant) : Instant :=
  { t with nanos := t.nanos / 1000 * 1000 }

theorem Proper.toMicros {t : Instant} (h : t.Proper) : t.toMicros.Proper where
  nanos_lt := Nat.lt_of_le_of_lt (Nat.div_mul_le_self t.nanos 1000) h.nanos_lt
  leap := fun late => h.leap (Nat.le_trans late (Nat.div_mul_le_self t.nanos 1000))

def date (t : Instant) : Date :=
  Date.ofDayNumber (t.seconds.fdiv day)

/-- The seconds since midnight; a leap second counts to the second before it. -/
def secondOfDay (t : Instant) : Nat :=
  (t.seconds.fmod day).toNat

/--
The instant a number of whole days later. A leap second exists on its own day only: leaving it, the
clock shows the second before it, or, going back, the second after it.
-/
def addDays? (t : Instant) (days : Int) : Option Instant :=
  let moved : Instant :=
    if t.nanos < second ∨ days = 0 then ⟨t.seconds + days * day, t.nanos⟩
    else if 0 < days then ⟨t.seconds + days * day, t.nanos - second⟩
    else ⟨t.seconds + 1 + days * day, t.nanos - second⟩
  if moved.Representable then some moved else none

end Instant

end Gatehouse.Time
