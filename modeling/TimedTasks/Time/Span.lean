/-!
# Lengths of time

A `Span` is a whole number of nanoseconds.  The longest span that a clock can
add up is one nanosecond short of `2 ^ 64` seconds.

`Span.text` writes a span in the largest of the units second, millisecond,
microsecond and nanosecond that it fills at least once, followed by as much of
the fraction as is not zero: `0ns`, `1.5µs`, `999.999999ms`, `60s`.
-/

namespace TimedTasks

/-- A length of time, counted in nanoseconds. -/
structure Span where
  nanos : Nat
  deriving DecidableEq, Repr, Inhabited

namespace Span

/-- The nanoseconds of one second. -/
def perSecond : Nat := 1000000000

def zero : Span := ⟨0⟩

/-- A span given as whole seconds and further nanoseconds. -/
def ofParts (seconds nanos : Nat) : Span := ⟨seconds * perSecond + nanos⟩

def ofSeconds (seconds : Nat) : Span := ⟨seconds * perSecond⟩

def ofMillis (millis : Nat) : Span := ⟨millis * 1000000⟩

def seconds (span : Span) : Nat := span.nanos / perSecond

/-- What a span has beyond its whole seconds, in nanoseconds. -/
def subsecond (span : Span) : Nat := span.nanos % perSecond

def isZero (span : Span) : Bool := span.nanos == 0

/-- The longest span: one nanosecond short of `2 ^ 64` seconds. -/
def longest : Span := ⟨18446744073709551616 * perSecond - 1⟩

/-- The sum of two spans, unless it passes the longest one. -/
def add? (first second : Span) : Option Span :=
  let sum := first.nanos + second.nanos
  if sum ≤ longest.nanos then some ⟨sum⟩ else none

/-- Half of a span, rounded down. -/
def half (span : Span) : Span := ⟨span.nanos / 2⟩

/-! ### The text of a span -/

/-- The digits of `fraction` as the places after a point, `places` of them,
without the zeros at the end; nothing at all when every place is zero. -/
def fractionText (fraction places : Nat) : String :=
  if fraction = 0 then ""
  else
    let digits := Nat.toDigits 10 fraction
    let padded := List.replicate (places - digits.length) '0' ++ digits
    "." ++ String.ofList (padded.reverse.dropWhile (· = '0')).reverse

/-- `nanos` in a unit of `10 ^ places` nanoseconds. -/
def inUnit (nanos places : Nat) (unit : String) : String :=
  toString (nanos / Nat.pow 10 places) ++ fractionText (nanos % Nat.pow 10 places) places ++ unit

def text (span : Span) : String :=
  if 1000000000 ≤ span.nanos then inUnit span.nanos 9 "s"
  else if 1000000 ≤ span.nanos then inUnit span.nanos 6 "ms"
  else if 1000 ≤ span.nanos then inUnit span.nanos 3 "µs"
  else inUnit span.nanos 0 "ns"

/-- Spans add up exactly, as far as the longest one. -/
theorem add?_eq_some_iff {first second sum : Span} :
    first.add? second = some sum ↔
      sum.nanos = first.nanos + second.nanos ∧ sum.nanos ≤ longest.nanos := by
  cases sum
  simp only [add?]
  split <;> simp_all <;> omega

end Span

end TimedTasks
