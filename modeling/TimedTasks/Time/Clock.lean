import TimedTasks.Time.Moment

/-!
# A clock that is moved by hand

A `ManualClock` shows the time that it has been moved by.  Moving it is refused
when the total would pass the longest span, and reading it is refused when the
moment it shows cannot be represented; neither refusal changes the clock.

A `WatchedClock` has listeners as well.  Each listener has a weight, and every
accepted move adds the weights of all listeners registered so far to a count.
-/

namespace TimedTasks

/-- A clock that moves only when it is told to. -/
structure ManualClock where
  elapsed : Span
  deriving DecidableEq, Repr, Inhabited

/-- Why a clock refuses. -/
inductive ClockFault where
  /-- The total of the moves would pass the longest span. -/
  | spanOverflow
  /-- The moment shown cannot be represented. -/
  | momentOverflow
  deriving DecidableEq, Repr

def ClockFault.message : ClockFault → String
  | .spanOverflow => "overflow when adding durations"
  | .momentOverflow => "overflow when adding duration to instant"

namespace ManualClock

/-- A clock that has not been moved. -/
def new : ManualClock := ⟨Span.zero⟩

/-- Where the clock stands, whether or not that moment can be represented. -/
def reading (clock : ManualClock) : Moment := ⟨clock.elapsed.nanos⟩

/-- Whether the moment that the clock shows can be represented. -/
def isReadable (clock : ManualClock) : Bool := clock.reading.isRepresentable

def now (clock : ManualClock) : Except ClockFault Moment :=
  if clock.isReadable then .ok clock.reading else .error .momentOverflow

def advance (clock : ManualClock) (move : Span) : Except ClockFault ManualClock :=
  match clock.elapsed.add? move with
  | some total => .ok ⟨total⟩
  | none => .error .spanOverflow

theorem now_eq_ok {clock : ManualClock} {moment : Moment} :
    clock.now = .ok moment ↔ clock.isReadable = true ∧ clock.reading = moment := by
  unfold now
  split <;> simp_all

theorem now_eq_error {clock : ManualClock} {fault : ClockFault} :
    clock.now = .error fault ↔ clock.isReadable = false ∧ .momentOverflow = fault := by
  unfold now
  split <;> simp_all

theorem advance_of_le {clock : ManualClock} {move : Span}
    (hle : clock.elapsed.nanos + move.nanos ≤ Span.longest.nanos) :
    clock.advance move = .ok ⟨⟨clock.elapsed.nanos + move.nanos⟩⟩ := by
  have hadd : clock.elapsed.add? move = some ⟨clock.elapsed.nanos + move.nanos⟩ :=
    Span.add?_eq_some_iff.mpr ⟨rfl, hle⟩
  rw [advance, hadd]

theorem advance_of_representable {clock : ManualClock} {move : Span}
    (hclock : clock.elapsed.nanos + move.nanos < Moment.horizon) :
    clock.advance move = .ok ⟨⟨clock.elapsed.nanos + move.nanos⟩⟩ := by
  have hlongest : Moment.horizon ≤ Span.longest.nanos := by decide
  exact advance_of_le (Nat.le_trans (Nat.le_of_lt hclock) hlongest)

theorem advance_of_lt {clock : ManualClock} {move : Span}
    (hlt : Span.longest.nanos < clock.elapsed.nanos + move.nanos) :
    clock.advance move = .error .spanOverflow := by
  have hadd : clock.elapsed.add? move = none := if_neg (Nat.not_le_of_lt hlt)
  rw [advance, hadd]

/-- A clock is never moved back. -/
theorem reading_le_of_advance {clock after : ManualClock} {move : Span}
    (hadvance : clock.advance move = .ok after) : clock.reading ≤ after.reading := by
  unfold advance at hadvance
  split at hadvance
  · rename_i total hadd
    obtain rfl := Except.ok.inj hadvance
    have htotal := (Span.add?_eq_some_iff.mp hadd).1
    simp only [reading, Moment.le_def]
    omega
  · simp at hadvance

/-- A clock that can be read could be read before it was moved. -/
theorem isReadable_of_advance {clock after : ManualClock} {move : Span}
    (hadvance : clock.advance move = .ok after) (hreadable : after.isReadable = true) :
    clock.isReadable = true := by
  have hle : clock.reading ≤ after.reading := reading_le_of_advance hadvance
  simp only [isReadable, Moment.isRepresentable, decide_eq_true_eq, Moment.le_def] at *
  omega

def text (clock : ManualClock) : String :=
  "ManualClock \x7b elapsed: " ++ clock.elapsed.text ++ " \x7d"

end ManualClock

/-- A clock with listeners that count its moves. -/
structure WatchedClock where
  clock : ManualClock
  /-- The weight of each listener, in the order of registration. -/
  weights : List Nat
  count : Nat
  deriving DecidableEq, Repr, Inhabited

namespace WatchedClock

/-- A clock that nobody watches yet. -/
def new : WatchedClock := ⟨ManualClock.new, [], 0⟩

def listen (watched : WatchedClock) (weight : Nat) : WatchedClock :=
  { watched with weights := watched.weights ++ [weight] }

/-- Move the clock and, if it moved, call every listener once. -/
def advance (watched : WatchedClock) (move : Span) : Except ClockFault WatchedClock :=
  match watched.clock.advance move with
  | .ok clock =>
    .ok { watched with clock, count := watched.count + watched.weights.foldr (· + ·) 0 }
  | .error fault => .error fault

end WatchedClock

end TimedTasks
