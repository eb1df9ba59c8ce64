import TimedTasks.Task.Schedule
import TimedTasks.Task.Script

/-!
# Records of tasks

A `Record` is all that is known of a task.  Its state moves along

* pending to running (`start?`),
* running to completed or failed (`finish?`),
* running to pending (`rearm`), and
* pending or running to cancelled (`cancel?`);

each of these operations looks at the state and moves it in one step, and an
operation that answers `none` or `false` has not moved it.

The body of a one-shot task is used up by its first run.  Its value, or its error,
is stored before the task is settled, so that a settled task always has an answer.
-/

namespace TimedTasks

/-- All that is known of a task. -/
structure Record (α : Type) where
  name : String
  schedule : Schedule
  script : Script α
  /-- When its next run, or once it is settled its last one, is due. -/
  nextRunAt : Moment
  state : TaskState := .pending
  /-- Whether the body of a one-shot task has been used up. -/
  bodySpent : Bool := false
  runs : Nat := 0
  /-- How many failures have been counted against the task. -/
  failures : Nat := 0
  lastError? : Option TaskError := none
  /-- What the body of a one-shot task left behind. -/
  result? : Option (Except TaskError α) := none

namespace Record

variable {α : Type}

def mode (record : Record α) : TaskMode := record.schedule.mode

def isPeriodic (record : Record α) : Bool := record.schedule.isPeriodic

def isCancelled (record : Record α) : Bool := record.state == .cancelled

def isDone (record : Record α) : Bool := record.state.isTerminal

/-! ### Moves -/

def start? (record : Record α) : Option (Record α) :=
  if record.state = .pending then some { record with state := .running } else none

/-- To cancelled, from any state that is not settled. -/
def cancel? (record : Record α) : Option (Record α) :=
  if record.state.isTerminal then none else some { record with state := .cancelled }

def finish? (record : Record α) (outcome : TaskState) : Option (Record α) :=
  if record.state = .running then some { record with state := outcome } else none

/-- Set the next due time, then move from running to pending.  The due time is set
even if the task is no longer running. -/
def rearm (record : Record α) (next : Moment) : Record α × Bool :=
  let record := { record with nextRunAt := next }
  if record.state = .running then ({ record with state := .pending }, true) else (record, false)

/-! ### Runs -/

/-- A run begins.  It is counted even if there is no body left to run. -/
def enter (record : Record α) : Record α × Option (Nat × Turn α) :=
  let run := record.runs + 1
  let record := { record with runs := run }
  if record.isPeriodic then (record, some (run, record.script run))
  else if record.bodySpent then (record, none)
  else ({ record with bodySpent := true }, some (1, record.script 1))

def noteFailure (record : Record α) (error : TaskError) : Record α :=
  { record with failures := record.failures + 1, lastError? := some error }

def resultOf : Ending α → Except TaskError α
  | .value value => .ok value
  | .error text => .error (.failed text)
  | .panic payload => .error (.ofPayload payload)

/-- A run ends: a one-shot task stores what it leaves behind, and an error counts as
a failure. -/
def leave (record : Record α) (ending : Ending α) : Record α :=
  let record :=
    if record.isPeriodic then record else { record with result? := some (resultOf ending) }
  match ending.error? with
  | some error => record.noteFailure error
  | none => record

/-! ### Questions -/

/-- What the holder of a task gets, or `none` while there is nothing to get yet. -/
def answer? (record : Record α) : Option (Except TaskError α) :=
  if record.isPeriodic then some (.error .notOneShot)
  else if !record.isDone then none
  else if record.isCancelled then some (.error .cancelled)
  else some (record.result?.getD (.error .cancelled))

/-- The span until the next due time, empty if that has passed. -/
def delay (record : Record α) (now : Moment) : Span := record.nextRunAt.since now

/-- The task as it is shown to a person; `id` stands for its number. -/
def text (record : Record α) (id : String) : String :=
  "TaskHandle \x7b id: TaskId(" ++ id ++ "), mode: " ++ record.mode.title ++ ", state: " ++
    record.state.title ++ ", runs: " ++ toString record.runs ++ " \x7d"

end Record

/-! ### What follows a run -/

/-- What is to be done with a task whose run has ended. -/
inductive Verdict where
  /-- The next due time cannot be represented. -/
  | giveUp (error : TaskError)
  | finish (outcome : TaskState)
  | rearm (next : Moment)
  deriving DecidableEq, Repr

/-- The verdict on a run that was due at `dueAt`, completed at `completedAt` and ended
with `error?`. -/
def Schedule.verdict (schedule : Schedule) (policy : FailurePolicy) (dueAt completedAt : Moment)
    (error? : Option TaskError) : Verdict :=
  match schedule.nextRun dueAt completedAt with
  | .error error => .giveUp error
  | .ok none => .finish (if error?.isNone then .completed else .failed)
  | .ok (some next) =>
    if error?.isSome ∧ policy = .stop then .finish .failed else .rearm next

end TimedTasks
