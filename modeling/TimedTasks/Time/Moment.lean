import TimedTasks.Time.Span

/-!
# Points in time

A `Moment` is counted from the origin of the clock that shows it.  Only the
moments before `Moment.horizon` can be represented, so adding a span to a moment
may fail; `Moment.add?_eq_some_iff` says exactly when.
-/

namespace TimedTasks

/-- A point in time, counted in nanoseconds from the origin of its clock. -/
structure Moment where
  nanos : Nat
  deriving DecidableEq, Repr, Inhabited

namespace Moment

/-- Where a clock stands before it has been moved. -/
def origin : Moment := ⟨0⟩

/-- The first moment that can no longer be represented.  A moment is kept as a
signed 64-bit count of seconds, and the origin is one second into it. -/
def horizon : Nat := 9223372036854775807 * Span.perSecond

def isRepresentable (moment : Moment) : Bool := moment.nanos < horizon

instance : LE Moment := ⟨fun first second => first.nanos ≤ second.nanos⟩
instance : LT Moment := ⟨fun first second => first.nanos < second.nanos⟩
instance (first second : Moment) : Decidable (first ≤ second) :=
  inferInstanceAs (Decidable (first.nanos ≤ second.nanos))
instance (first second : Moment) : Decidable (first < second) :=
  inferInstanceAs (Decidable (first.nanos < second.nanos))

/-- The moment a span later, unless it cannot be represented. -/
def add? (moment : Moment) (span : Span) : Option Moment :=
  let later : Moment := ⟨moment.nanos + span.nanos⟩
  if later.isRepresentable then some later else none

/-- The span from `earlier` to `later`, empty if there is none. -/
def since (later earlier : Moment) : Span := ⟨later.nanos - earlier.nanos⟩

theorem le_def {first second : Moment} : first ≤ second ↔ first.nanos ≤ second.nanos := Iff.rfl

theorem lt_def {first second : Moment} : first < second ↔ first.nanos < second.nanos := Iff.rfl

/-- Moments move on exactly, as far as they can be represented. -/
theorem add?_eq_some_iff {moment later : Moment} {span : Span} :
    moment.add? span = some later ↔
      later.nanos = moment.nanos + span.nanos ∧ later.nanos < horizon := by
  cases later
  simp only [add?, isRepresentable, decide_eq_true_eq]
  split <;> simp_all <;> omega

theorem isRepresentable_of_add? {moment later : Moment} {span : Span}
    (hadd : moment.add? span = some later) : later.isRepresentable = true :=
  decide_eq_true (add?_eq_some_iff.mp hadd).2

end Moment

end TimedTasks
