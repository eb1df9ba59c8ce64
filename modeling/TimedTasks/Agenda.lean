import TimedTasks.Metrics
import TimedTasks.Queue.Basic
import TimedTasks.Task.Record
import TimedTasks.Time.Clock

/-!
# The agenda

An `Agenda` is what the parts of a scheduler share: the clock, the records of all
tasks, the queue, the counters, the failure policy, an observer of failures, and the
history of what bodies and observers have seen.

The clock can be read only while the moment it shows can be represented.  Whoever reads it
later than that panics: a taker that looks for a due task, a run that begins or is complete,
and a caller that schedules a task.

A run goes through four stages, each a function here:

* `enter`: the clock has been read, and the body is called for;
* `leave`: the body has ended, and its ending is noted on the record;
* `settle`: the clock has been read again; the run is counted, a failure is reported, and
  the verdict on it moves the record on;
* `putBack`: a periodic task that goes on returns to the queue.

`execute` is all four in a row.
-/

namespace TimedTasks

/-- A failure as it is reported. -/
structure Failure where
  task : TaskId
  mode : TaskMode
  run : Nat
  error : TaskError
  deriving DecidableEq, Repr

/-- Someone who wants to hear of failures.  Being told of one, an observer may panic. -/
structure Observer where
  hear : Failure → Except Payload Unit

namespace Observer

/-- An observer that never panics. -/
def calm : Observer := ⟨fun _ => .ok ()⟩

/-- An observer that panics whatever it is told. -/
def panicking : Observer := ⟨fun _ => .error (.shown "observer")⟩

end Observer

/-- What has been seen. -/
inductive Event where
  | entered (task : TaskId) (run : Nat) (now due : Moment) (worker : Nat)
  | reported (failure : Failure)
  | submitted (name : String) (result : Except SchedulerError Unit)

/-- Where a run stands. -/
inductive Stage (α : Type) where
  /-- In the body, if there was one left to enter. -/
  | inside (turn? : Option (Turn α))
  | left (error? : Option TaskError)
  /-- The task is pending again and has to go back into the queue. -/
  | rearmed
  /-- The queue did not take the task back. -/
  | refused

/-- A run in the hands of a worker. -/
structure Job (α : Type) where
  task : TaskId
  worker : Nat
  dueAt : Moment
  startedAt : Moment
  stage : Stage α

/-- What the parts of a scheduler share. -/
structure Agenda (α : Type) where
  clock : ManualClock := .new
  records : Array (Record α) := #[]
  queue : Queue
  metrics : Metrics := {}
  policy : FailurePolicy := .keepGoing
  observer? : Option Observer := none
  /-- How many panics of observers have been caught. -/
  caught : Nat := 0
  /-- The newest event first. -/
  history : List Event := []

namespace Agenda

variable {α : Type}

/-! ### Records -/

def now (agenda : Agenda α) : Except ClockFault Moment := agenda.clock.now

/-- Where the clock stands, whether or not it can be read there. -/
def reading (agenda : Agenda α) : Moment := agenda.clock.reading

def nameOf (agenda : Agenda α) (task : TaskId) : String :=
  (agenda.records[task]?.map Record.name).getD ""

def dueOf (agenda : Agenda α) (task : TaskId) : Moment :=
  (agenda.records[task]?.map Record.nextRunAt).getD Moment.origin

def periodicOf (agenda : Agenda α) (task : TaskId) : Bool :=
  (agenda.records[task]?.map Record.isPeriodic).getD false

def cancelledOf (agenda : Agenda α) (task : TaskId) : Bool :=
  (agenda.records[task]?.map Record.isCancelled).getD false

/-- Add a record; its number is how many there were before. -/
def addRecord (agenda : Agenda α) (record : Record α) : Agenda α × TaskId :=
  ({ agenda with records := agenda.records.push record }, agenda.records.size)

def update (agenda : Agenda α) (task : TaskId) (change : Record α → Record α) : Agenda α :=
  { agenda with records := agenda.records.modify task change }

/-- Try to move the record of a task, and say whether it moved. -/
def attempt (agenda : Agenda α) (task : TaskId) (move : Record α → Option (Record α)) :
    Agenda α × Bool :=
  match agenda.records[task]?.bind move with
  | some record => ({ agenda with records := agenda.records.setIfInBounds task record }, true)
  | none => (agenda, false)

def start (agenda : Agenda α) (task : TaskId) : Agenda α × Bool :=
  agenda.attempt task Record.start?

/-- Cancel a task that is not settled. -/
def cancel (agenda : Agenda α) (task : TaskId) : Agenda α × Bool :=
  agenda.attempt task Record.cancel?

def finish (agenda : Agenda α) (task : TaskId) (outcome : TaskState) : Agenda α × Bool :=
  agenda.attempt task fun record => record.finish? outcome

/-- Make a running task pending again, due at `next`. -/
def rearm (agenda : Agenda α) (task : TaskId) (next : Moment) : Agenda α × Bool :=
  match agenda.records[task]? with
  | some record =>
    let (record, moved) := record.rearm next
    ({ agenda with records := agenda.records.setIfInBounds task record }, moved)
  | none => (agenda, false)

/-- Count a failure against a task. -/
def noteFailure (agenda : Agenda α) (task : TaskId) (error : TaskError) : Agenda α :=
  agenda.update task fun record => record.noteFailure error

/-! ### Queue and clock -/

def insert (agenda : Agenda α) (caller : Nat) (task : TaskId) : Agenda α × Admitted :=
  let producer : Producer := ⟨caller, task, agenda.periodicOf task⟩
  let (queue, outcome) := agenda.queue.insert producer (agenda.dueOf task)
  ({ agenda with queue }, outcome)

/-- A producer that was woken looks again. -/
def resume (agenda : Agenda α) (producer : Producer) : Agenda α × Admitted :=
  let (queue, outcome) := agenda.queue.resume producer (agenda.dueOf producer.task)
  ({ agenda with queue }, outcome)

/-- Bring a task without waiting for room. -/
def tryInsert (agenda : Agenda α) (task : TaskId) : Except SchedulerError (Agenda α) :=
  match agenda.queue.tryInsert task (agenda.periodicOf task) (agenda.dueOf task) with
  | .ok queue => .ok { agenda with queue }
  | .error error => .error error

def requeue (agenda : Agenda α) (task : TaskId) : Agenda α × Bool :=
  match agenda.queue.requeue task (agenda.periodicOf task) (agenda.cancelledOf task)
      (agenda.dueOf task) with
  | some queue => ({ agenda with queue }, true)
  | none => (agenda, false)

/-- A taker looks, and reads the clock if there is anything that might be due. -/
def take (agenda : Agenda α) (caller : Nat) : Except ClockFault (Agenda α × Taken) :=
  match agenda.queue.asksTime, agenda.now with
  | true, .error fault => .error fault
  | _, _ =>
    let (queue, outcome) := agenda.queue.take caller agenda.reading
    .ok ({ agenda with queue }, outcome)

def remove (agenda : Agenda α) (task : TaskId) : Agenda α × Bool :=
  match agenda.queue.remove task with
  | some queue => ({ agenda with queue }, true)
  | none => (agenda, false)

def close (agenda : Agenda α) (drain : Bool) : Agenda α × List TaskId :=
  let (queue, removed) := agenda.queue.close drain
  ({ agenda with queue }, removed.map (·.task))

/-- Move the clock and have every taker look again. -/
def advance (agenda : Agenda α) (move : Span) : Except ClockFault (Agenda α) :=
  match agenda.clock.advance move with
  | .ok clock => .ok { agenda with clock, queue := agenda.queue.wake }
  | .error fault => .error fault

/-- Move the clock, if there is a move to make. -/
def passTime (agenda : Agenda α) : Option Span → Except ClockFault (Agenda α)
  | none => .ok agenda
  | some move => agenda.advance move

/-! ### Stages of a run -/

def note (agenda : Agenda α) (event : Event) : Agenda α :=
  { agenda with history := event :: agenda.history }

/-- Tell the observer, if there is one, of a failure, and catch it if it panics. -/
def report (agenda : Agenda α) (task : TaskId) (error : TaskError) : Agenda α :=
  match agenda.observer?, agenda.records[task]? with
  | some observer, some record =>
    let failure : Failure := ⟨task, record.mode, record.runs, error⟩
    let caught := match observer.hear failure with
      | .ok () => agenda.caught
      | .error _ => agenda.caught + 1
    { agenda.note (.reported failure) with caught }
  | _, _ => agenda

/-- A worker has read the clock and calls for the body of a task. -/
def enter (agenda : Agenda α) (task : TaskId) (worker : Nat) (startedAt : Moment) :
    Agenda α × Job α :=
  let due := agenda.dueOf task
  let job : Job α := ⟨task, worker, due, startedAt, .inside none⟩
  match agenda.records[task]? with
  | none => (agenda, job)
  | some record =>
    let (record, body?) := record.enter
    let agenda := { agenda with records := agenda.records.setIfInBounds task record }
    match body? with
    | none => (agenda, job)
    | some (run, turn) =>
      (agenda.note (.entered task run startedAt due worker),
        { job with stage := .inside (some turn) })

def leave (agenda : Agenda α) (task : TaskId) (ending : Ending α) : Agenda α :=
  agenda.update task fun record => record.leave ending

/-- Count a run that has completed at `completedAt`, and report it if it failed. -/
def account (agenda : Agenda α) (job : Job α) (completedAt : Moment) (error? : Option TaskError) :
    Agenda α :=
  match agenda.records[job.task]? with
  | none => agenda
  | some record =>
    let metrics :=
      agenda.metrics.recordRun record.mode (completedAt.since job.startedAt) error?.isNone
    let agenda := { agenda with metrics }
    match error? with
    | some error => agenda.report job.task error
    | none => agenda

/-- Do what the verdict on a run asks for, and say whether the task is to go back into
the queue. -/
def carryOut (agenda : Agenda α) (task : TaskId) : Verdict → Agenda α × Bool
  | .giveUp error =>
    let agenda := (agenda.noteFailure task error).report task error
    ((agenda.finish task .failed).1, false)
  | .finish outcome => ((agenda.finish task outcome).1, false)
  | .rearm next => agenda.rearm task next

/-- Count a run whose body has ended and move its record on; say whether the task is to
go back into the queue. -/
def settle (agenda : Agenda α) (job : Job α) (completedAt : Moment) (error? : Option TaskError) :
    Agenda α × Bool :=
  match agenda.records[job.task]? with
  | none => (agenda, false)
  | some record =>
    let verdict := record.schedule.verdict agenda.policy job.dueAt completedAt error?
    (agenda.account job completedAt error?).carryOut job.task verdict

/-! ### A run in one go -/

/-- The newest record of a name. -/
def named? (agenda : Agenda α) (name : String) : Option TaskId :=
  (List.range agenda.records.size).reverse.find? fun task =>
    (agenda.records[task]?.map (·.name == name)).getD false

/-- What a turn does to the clock and to other records, and how it ends.  A move of the
clock that is refused ends the run at once. -/
def perform (agenda : Agenda α) (turn : Turn α) : Agenda α × Ending α :=
  match agenda.passTime turn.advance? with
  | .error fault => (agenda, .panic (.shown fault.message))
  | .ok agenda =>
    match turn.cancel?.bind agenda.named? with
    | some task => ((agenda.cancel task).1, turn.ending)
    | none => (agenda, turn.ending)

/-- Run the body of a task once, and say with which error it ended. -/
def runBody (agenda : Agenda α) (task : TaskId) (startedAt : Moment) :
    Agenda α × Job α × Option TaskError :=
  let (agenda, job) := agenda.enter task 0 startedAt
  match job.stage with
  | .inside (some turn) =>
    let (agenda, ending) := agenda.perform turn
    (agenda.leave task ending, job, ending.error?)
  | _ => (agenda, job, none)

/-- A run that cannot read the clock goes no further. -/
def execute (agenda : Agenda α) (task : TaskId) : Agenda α :=
  match agenda.now with
  | .error _ => agenda
  | .ok startedAt =>
    let (agenda, job, error?) := agenda.runBody task startedAt
    match agenda.now with
    | .error _ => agenda
    | .ok completedAt =>
      match agenda.settle job completedAt error? with
      | (agenda, false) => agenda
      | (agenda, true) =>
        match agenda.requeue task with
        | (agenda, true) => agenda
        | (agenda, false) => (agenda.cancel task).1

end Agenda

end TimedTasks
