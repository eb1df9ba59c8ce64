import TimedTasks.Scheduler.Error

/-!
# The life of a scheduler

A scheduler runs, then shuts down, then has stopped; `Lifecycle.rank` counts how
far it has come.
-/

namespace TimedTasks

/-- How far a scheduler has come. -/
inductive Lifecycle where
  | running
  | shuttingDown
  | stopped
  deriving DecidableEq, Repr, Inhabited

namespace Lifecycle

def name : Lifecycle → String
  | running => "running"
  | shuttingDown => "shutting_down"
  | stopped => "stopped"

def rank : Lifecycle → Nat
  | running => 0
  | shuttingDown => 1
  | stopped => 2

/-- Calls that need a running scheduler are refused otherwise. -/
def ensureRunning : Lifecycle → Except SchedulerError Unit
  | running => .ok ()
  | shuttingDown | stopped => .error .closed

/-- Beginning a shutdown moves a running scheduler on and leaves any other where
it is. -/
def beginShutdown : Lifecycle → Lifecycle
  | running => shuttingDown
  | shuttingDown => shuttingDown
  | stopped => stopped

theorem beginShutdown_ne_running (stage : Lifecycle) : stage.beginShutdown ≠ running := by
  cases stage <;> decide

end Lifecycle

end TimedTasks
