import TimedTasks.Agenda
import TimedTasks.Config.Basic

/-!
# The state of a scheduler

A `Scheduler` is an agenda with those who work on it:

* callers, each of whose calls is in progress until it has its answer;
* one dispatcher, which takes due tasks from the queue and hands them over;
* a fixed number of workers, each with at most one `Job`; tasks handed over while all
  of them are busy wait in the backlog.

Nobody holds the whole scheduler at once.  A call therefore has stages, and anything
may happen between two of them; the same goes for the dispatcher and for a job.

Whoever cannot read the clock panics.  A call then ends without its answer, the dispatcher
ends for good, and a worker drops its job, so that its run is `lost`: the worker is free
again and the run no longer in flight, but its task is not moved on.
-/

namespace TimedTasks

/-- Calls are numbered in the order in which they are made. -/
abbrev CallId := Nat

/-- A task as its caller describes it. -/
structure Submission (α : Type) where
  name : String
  schedule : Schedule
  delay : Span
  script : Script α

/-- What a caller can ask for. -/
inductive Request (α : Type) where
  /-- Accept a task.  A patient caller waits while a bounded queue is full. -/
  | schedule (submission : Submission α) (patient : Bool)
  /-- Cancel a task.  Only a task that has been accepted has a holder who can ask. -/
  | cancel (task : TaskId)
  /-- Wind down; queued one-shot tasks still run if the scheduler is to drain. -/
  | shutdown (drain : Bool)

/-- How far a call has come. -/
inductive Call where
  /-- The task may be scheduled and its due time is fixed; it is to enter the queue. -/
  | inserting (task : TaskId) (patient : Bool)
  /-- The task waits for room in the queue. -/
  | parked (task : TaskId)
  /-- The task has been cancelled; it is to be pulled out of the queue. -/
  | removing (task : TaskId)
  /-- The scheduler is shutting down; this call is to claim the immediate shutdown. -/
  | claiming
  /-- The queue is to be closed. -/
  | closing (drain : Bool)
  /-- The tasks removed from the queue are to be cancelled one by one. -/
  | cancelling (drain : Bool) (left done : List TaskId)
  deriving DecidableEq, Repr

/-- What comes of a call in the end. -/
inductive Answer where
  | scheduled (result : Except SchedulerError TaskId)
  /-- Whether this call performed the cancellation. -/
  | cancelled (won : Bool)
  /-- The tasks that this call cancelled. -/
  | shutDown (result : Except SchedulerError (List TaskId))
  /-- The caller panicked, as the clock could not be read. -/
  | panicked (fault : ClockFault)

/-- Where the dispatcher stands. -/
inductive Dispatcher where
  /-- It looks for a due task, or sleeps until it is told to look again. -/
  | seeking
  /-- It holds a task that it has taken from the queue. -/
  | holding (task : TaskId)
  /-- It knows that no task will come any more, and waits for the runs in flight. -/
  | winding
  /-- No run is in flight any more. -/
  | idle
  | gone
  /-- It has panicked, as the clock could not be read. -/
  | broken
  deriving DecidableEq, Repr, Inhabited

/-- A run that nobody goes on with: its worker panicked, as the clock could not be read. -/
inductive LostRun where
  /-- The body has not been entered. -/
  | unentered (task : TaskId)
  /-- The body has ended, and the run was to be counted next. -/
  | uncounted (task : TaskId) (error? : Option TaskError)
  deriving DecidableEq, Repr

def LostRun.task : LostRun → TaskId
  | unentered task | uncounted task _ => task

/-- A scheduler. -/
structure Scheduler (α : Type) where
  agenda : Agenda α
  config : Config
  workers : Nat
  lifecycle : Lifecycle := .running
  /-- Whether some call has claimed the immediate shutdown. -/
  claimed : Bool := false
  dispatcher : Dispatcher := .seeking
  /-- Tasks handed over that no worker has taken up yet, the oldest first. -/
  backlog : List TaskId := []
  jobs : List (Job α) := []
  /-- The newest first. -/
  lost : List LostRun := []
  /-- The calls in progress, the oldest first. -/
  calls : List (CallId × Call) := []
  nextCall : CallId := 0
  /-- The calls that have been answered, the newest first. -/
  answers : List (CallId × Answer) := []
  /-- The tasks that have been accepted, the newest first. -/
  accepted : List TaskId := []
  /-- How many moves of the clock have not been announced yet. -/
  unannounced : Nat := 0
  openGates : List String := []

namespace Scheduler

variable {α : Type}

/-- The number under which the dispatcher sleeps in the queue. -/
def dispatcherCaller : Nat := 0

/-- A scheduler that nobody has called yet, on a machine with `cores` processors. -/
def new (config : Config) (cores : Nat) : Except SchedulerError (Scheduler α) :=
  match config.validate with
  | .error fault => .error (.config fault)
  | .ok () =>
    .ok {
      agenda := { queue := .new config.capacity, policy := config.policy }
      config
      workers := config.resolvedWorkers cores }

/-! ### Questions -/

/-- The runs in flight: handed over and not finished. -/
def active (scheduler : Scheduler α) : Nat := scheduler.backlog.length + scheduler.jobs.length

def pending (scheduler : Scheduler α) : Nat := scheduler.agenda.queue.size

def snapshot (scheduler : Scheduler α) : Snapshot :=
  { metrics := scheduler.agenda.metrics
    workers := scheduler.workers
    active := scheduler.active
    depth := scheduler.pending
    capacity? := scheduler.agenda.queue.capacity?
    lifecycle := scheduler.lifecycle }

def isShutdown (scheduler : Scheduler α) : Bool := scheduler.lifecycle != .running

def isTerminated (scheduler : Scheduler α) : Bool := scheduler.lifecycle == .stopped

/-- The gates that bodies have come to and not passed yet. -/
def heldGates (scheduler : Scheduler α) : List String :=
  scheduler.jobs.filterMap fun job =>
    match job.stage with
    | .inside (some turn) => turn.gate?
    | _ => none

/-- The tasks whose runs have been lost. -/
def lostTasks (scheduler : Scheduler α) : List TaskId := scheduler.lost.map LostRun.task

def record? (scheduler : Scheduler α) (task : TaskId) : Option (Record α) :=
  scheduler.agenda.records[task]?

/-- The newest accepted task of a name. -/
def named? (scheduler : Scheduler α) (name : String) : Option TaskId :=
  scheduler.accepted.find? fun task => scheduler.agenda.nameOf task == name

/-- What the holder of a task gets, or `none` while there is nothing to get yet. -/
def get? (scheduler : Scheduler α) (task : TaskId) : Option (Except TaskError α) :=
  (scheduler.record? task).bind Record.answer?

/-- The answer of a call, or `none` while it is in progress. -/
def answer? (scheduler : Scheduler α) (call : CallId) : Option Answer :=
  scheduler.answers.lookup call

/-- The workers that have no job. -/
def freeWorkers (scheduler : Scheduler α) : List Nat :=
  (List.range scheduler.workers).filter fun worker =>
    !scheduler.jobs.any fun job => job.worker == worker

def threadName (scheduler : Scheduler α) (worker : Nat) : String :=
  scheduler.config.threadName ++ "-worker-" ++ toString worker

end Scheduler

end TimedTasks
