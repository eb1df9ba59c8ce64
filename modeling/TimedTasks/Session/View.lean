import TimedTasks.Agenda

/-!
# What an observer sees

The rows, log lines and failure lines that a session reports after each step.  Tasks
are shown under their names; of several tasks with one name the newest is shown.
-/

namespace TimedTasks

/-- One entered body. -/
structure LogLine where
  name : String
  run : Nat
  now : Moment
  worker : Nat
  deriving DecidableEq, Repr, Inhabited

/-- One reported failure. -/
structure FailureLine where
  name : String
  mode : TaskMode
  run : Nat
  error : TaskError
  deriving DecidableEq, Repr

/-- Whether one pair of a name and a number comes no later than another. -/
def nameRunLE (first second : String × Nat) : Bool :=
  first.1 < second.1 || (first.1 == second.1 && first.2 ≤ second.2)

namespace Agenda

variable {α : Type}

/-- The events since the history had `known` of them, the oldest first. -/
def newsSince (agenda : Agenda α) (known : Nat) : List Event :=
  (agenda.history.take (agenda.history.length - known)).reverse

def logLines (agenda : Agenda α) (news : List Event) : List LogLine :=
  news.filterMap fun
    | .entered task run now _ worker => some ⟨agenda.nameOf task, run, now, worker⟩
    | _ => none

def failureLines (agenda : Agenda α) (news : List Event) : List FailureLine :=
  news.filterMap fun
    | .reported failure =>
      some ⟨agenda.nameOf failure.task, failure.mode, failure.run, failure.error⟩
    | _ => none

def submissions (news : List Event) : List (String × Except SchedulerError Unit) :=
  news.filterMap fun
    | .submitted name result => some (name, result)
    | _ => none

/-- The records of some tasks under their names; of several with one name the first. -/
def rows (agenda : Agenda α) (tasks : List TaskId) : List (String × Record α) :=
  let add (rows : List (String × Record α)) (task : TaskId) : List (String × Record α) :=
    match agenda.records[task]? with
    | some record => if rows.any (·.1 == record.name) then rows else (record.name, record) :: rows
    | none => rows
  tasks.foldl add []

end Agenda

end TimedTasks
