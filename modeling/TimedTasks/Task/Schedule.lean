import TimedTasks.Task.Error
import TimedTasks.Task.Mode
import TimedTasks.Time.Moment

/-!
# Schedules

A `Schedule` is a mode together with its period.  `Schedule.nextRun` gives the
due time of the next run: a period after the due time of the last one for a fixed
rate, a period after its completion for a fixed delay, and none for a one-shot.
-/

namespace TimedTasks

/-- A mode with its period. -/
inductive Schedule where
  | oneShot
  | fixedRate (period : Span)
  | fixedDelay (period : Span)
  deriving DecidableEq, Repr, Inhabited

namespace Schedule

def mode : Schedule → TaskMode
  | oneShot => .oneShot
  | fixedRate _ => .fixedRate
  | fixedDelay _ => .fixedDelay

def period? : Schedule → Option Span
  | oneShot => none
  | fixedRate period | fixedDelay period => some period

/-- The schedule of a mode with a period; a one-shot has none. -/
def ofMode (mode : TaskMode) (period : Span) : Schedule :=
  match mode with
  | .oneShot => oneShot
  | .fixedRate => fixedRate period
  | .fixedDelay => fixedDelay period

def isPeriodic (schedule : Schedule) : Bool := schedule.mode.isPeriodic

/-- A period after `base`. -/
def after (base : Moment) (period : Span) : Except TaskError (Option Moment) :=
  match base.add? period with
  | some next => .ok (some next)
  | none => .error (.outOfRange period)

/-- The due time that follows a run that was due at `dueAt` and completed at
`completedAt`. -/
def nextRun (schedule : Schedule) (dueAt completedAt : Moment) :
    Except TaskError (Option Moment) :=
  match schedule with
  | oneShot => .ok none
  | fixedRate period => after dueAt period
  | fixedDelay period => after completedAt period

end Schedule

end TimedTasks
