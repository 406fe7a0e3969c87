import RoutePlan.Time.Calendar

/-!
# Instants

An instant is a whole second since 1970-01-01T00:00:00Z and a count of nanoseconds within it. A leap
second has no number of its own: it continues the second before it, with nanoseconds from
`1 000 000 000` on. Instants are ordered by second, then by nanosecond.
-/

namespace RoutePlan

/-- A point in time, in Coordinated Universal Time. -/
structure Instant where
  seconds : Int
  nanos : Nat
  deriving DecidableEq, Inhabited

namespace Instant

instance : LT Instant where
  lt a b := a.seconds < b.seconds ∨ (a.seconds = b.seconds ∧ a.nanos < b.nanos)

instance : LE Instant where
  le a b := ¬b < a

/-- Instants are ordered by second, then by nanosecond. -/
theorem lt_def {a b : Instant} :
    a < b ↔ a.seconds < b.seconds ∨ (a.seconds = b.seconds ∧ a.nanos < b.nanos) := Iff.rfl

/-- An instant is at most another one if it is not after it. -/
theorem le_def {a b : Instant} : a ≤ b ↔ ¬b < a := Iff.rfl

instance (a b : Instant) : Decidable (a < b) :=
  inferInstanceAs (Decidable (a.seconds < b.seconds ∨ (a.seconds = b.seconds ∧ a.nanos < b.nanos)))

instance (a b : Instant) : Decidable (a ≤ b) := inferInstanceAs (Decidable (¬b < a))

theorem lt_irrefl (a : Instant) : ¬a < a := by simp only [lt_def]; omega

theorem lt_trans {a b c : Instant} (h : a < b) (h' : b < c) : a < c := by
  simp only [lt_def] at *; omega

theorem lt_asymm {a b : Instant} (h : a < b) : ¬b < a := by simp only [lt_def] at *; omega

/-- Any two instants are ordered. -/
theorem lt_or_eq_or_gt (a b : Instant) : a < b ∨ a = b ∨ b < a := by
  cases a; cases b; simp only [lt_def, Instant.mk.injEq]; omega

theorem lt_of_le_of_lt {a b c : Instant} (h : a ≤ b) (h' : b < c) : a < c := by
  simp only [le_def, lt_def] at *; omega

theorem lt_of_lt_of_le {a b c : Instant} (h : a < b) (h' : b ≤ c) : a < c := by
  simp only [le_def, lt_def] at *; omega

theorem le_trans {a b c : Instant} (h : a ≤ b) (h' : b ≤ c) : a ≤ c := by
  simp only [le_def, lt_def] at *; omega

theorem le_of_lt {a b : Instant} (h : a < b) : a ≤ b := lt_asymm h

/-- The length of the second an instant lies in: a second already in its leap part is twice as
long. -/
def secondLength (t : Instant) : Nat := if 1000000000 ≤ t.nanos then 2000000000 else 1000000000

/-- One microsecond later. -/
def addMicrosecond (t : Instant) : Instant :=
  if t.nanos + 1000 < t.secondLength then { t with nanos := t.nanos + 1000 }
  else ⟨t.seconds + 1, t.nanos + 1000 - t.secondLength⟩

/-- A microsecond later is later. -/
theorem lt_addMicrosecond (t : Instant) : t < t.addMicrosecond := by
  unfold addMicrosecond
  split
  · exact Or.inr ⟨rfl, Nat.lt_add_of_pos_right (by decide)⟩
  · exact Or.inl (Int.lt_add_one_iff.2 (Int.le_refl _))

/-- The first second of the first year that can be represented. -/
def firstSecond : Int := Date.toDays ⟨Date.firstYear, 1, 1⟩ * 86400

/-- The last second of the last year that can be represented. -/
def lastSecond : Int := Date.toDays ⟨Date.lastYear + 1, 1, 1⟩ * 86400 - 1

/-- Whether an instant lies in the years that can be represented. -/
def isRepresentable (t : Instant) : Bool :=
  decide (firstSecond ≤ t.seconds ∧ t.seconds ≤ lastSecond)

/-- The instant a number of nanoseconds after 1970-01-01T00:00:00Z. -/
def ofNanos (n : Int) : Instant := ⟨n.fdiv 1000000000, (n.fmod 1000000000).toNat⟩

/-- The last whole microsecond. -/
def truncateToMicros (t : Instant) : Instant := { t with nanos := t.nanos - t.nanos % 1000 }

end Instant
end RoutePlan
