import TimedTasks.Scheduler.Lifecycle

/-!
# Counting what a scheduler does

`Metrics` holds the counters of a scheduler, `Metrics.recordRun` adds a finished
run to them, and a `Snapshot` joins them with what the scheduler looks like at one
moment.

The average duration of a mode is kept as a running mean.  The first run of a mode
sets it exactly; every later one moves it in double precision, on nanoseconds, and
cuts the result down to a whole number that fits into a word.
-/

namespace TimedTasks

/-- At most one value for each mode. -/
structure ByMode (β : Type) where
  oneShot : Option β := none
  fixedRate : Option β := none
  fixedDelay : Option β := none
  deriving DecidableEq, Repr, Inhabited

namespace ByMode

variable {β : Type}

def get? (table : ByMode β) : TaskMode → Option β
  | .oneShot => table.oneShot
  | .fixedRate => table.fixedRate
  | .fixedDelay => table.fixedDelay

def insert (table : ByMode β) (mode : TaskMode) (value : β) : ByMode β :=
  match mode with
  | .oneShot => { table with oneShot := some value }
  | .fixedRate => { table with fixedRate := some value }
  | .fixedDelay => { table with fixedDelay := some value }

def toList (table : ByMode β) : List (TaskMode × β) :=
  TaskMode.all.filterMap fun mode => (table.get? mode).map (mode, ·)

@[simp] theorem get?_insert (table : ByMode β) (mode other : TaskMode) (value : β) :
    (table.insert mode value).get? other =
      if other = mode then some value else table.get? other := by
  cases mode <;> cases other <;> rfl

end ByMode

/-- The counters of a scheduler. -/
structure Metrics where
  scheduled : Nat := 0
  /-- Tasks handed from the queue to a worker. -/
  dispatched : Nat := 0
  completed : Nat := 0
  failed : Nat := 0
  /-- Tasks taken from the queue that had been cancelled before. -/
  discarded : Nat := 0
  /-- Tasks cancelled by an immediate shutdown. -/
  abandoned : Nat := 0
  executions : ByMode Nat := {}
  averages : ByMode Span := {}
  /-- The modes that have been stamped with the time of their last run. -/
  stamped : ByMode Unit := {}
  deriving DecidableEq, Repr, Inhabited

/-- A mean of `count - 1` spans moved by one more span. -/
def movedMean (mean span : Span) (count : Nat) : Span :=
  let before := Float.ofNat mean.nanos
  let latest := Float.ofNat span.nanos
  ⟨(before + (latest - before) / Float.ofNat count).toUInt64.toNat⟩

namespace Metrics

/-- Count a run that took `duration`. -/
def recordRun (metrics : Metrics) (mode : TaskMode) (duration : Span) (succeeded : Bool) :
    Metrics :=
  let count := (metrics.executions.get? mode).getD 0 + 1
  let mean :=
    if count = 1 then duration
    else movedMean ((metrics.averages.get? mode).getD Span.zero) duration count
  { metrics with
    completed := if succeeded then metrics.completed + 1 else metrics.completed
    failed := if succeeded then metrics.failed else metrics.failed + 1
    executions := metrics.executions.insert mode count
    averages := metrics.averages.insert mode mean
    stamped := metrics.stamped.insert mode () }

def totalExecutions (metrics : Metrics) : Nat :=
  (metrics.executions.toList.map Prod.snd).foldr (· + ·) 0

end Metrics

/-- The counters of a scheduler and what it looks like at one moment. -/
structure Snapshot where
  metrics : Metrics
  workers : Nat := 0
  /-- Runs handed to the workers and not finished. -/
  active : Nat := 0
  depth : Nat := 0
  /-- The bound of the queue, if it has one. -/
  capacity? : Option Nat := none
  lifecycle : Lifecycle := .running
  deriving DecidableEq, Repr, Inhabited

def Snapshot.utilization (snapshot : Snapshot) : Float :=
  if snapshot.workers = 0 then 0 else Float.ofNat snapshot.active / Float.ofNat snapshot.workers

end TimedTasks
