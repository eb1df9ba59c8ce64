/-!
# Modes and states of a task

How a task is scheduled, where it stands in its life, and what happens to a
periodic task when one of its runs fails.  Each of the three has a written name
by which configuration files and answers refer to it; `ofName?` reads that name
back and accepts no other spelling.
-/

namespace TimedTasks

/-- How a task is scheduled. -/
inductive TaskMode where
  | oneShot
  /-- Periodic, on a grid that is fixed by the first due time. -/
  | fixedRate
  /-- Periodic, with a fixed gap after each run. -/
  | fixedDelay
  deriving DecidableEq, Repr, Inhabited

namespace TaskMode

/-- All modes, in the order of their declaration. -/
def all : List TaskMode := [oneShot, fixedRate, fixedDelay]

def isPeriodic : TaskMode → Bool
  | oneShot => false
  | fixedRate | fixedDelay => true

def name : TaskMode → String
  | oneShot => "one_shot"
  | fixedRate => "fixed_rate"
  | fixedDelay => "fixed_delay"

def title : TaskMode → String
  | oneShot => "OneShot"
  | fixedRate => "FixedRate"
  | fixedDelay => "FixedDelay"

def ofName? (text : String) : Option TaskMode := all.find? (·.name == text)

end TaskMode

/-- Where a task stands.  The last three states are never left again. -/
inductive TaskState where
  | pending
  | running
  | completed
  | failed
  | cancelled
  deriving DecidableEq, Repr, Inhabited

namespace TaskState

/-- All states, in the order of their codes. -/
def all : List TaskState := [pending, running, completed, failed, cancelled]

def isTerminal : TaskState → Bool
  | pending | running => false
  | completed | failed | cancelled => true

def code : TaskState → Nat
  | pending => 0
  | running => 1
  | completed => 2
  | failed => 3
  | cancelled => 4

/-- The state of a number; everything past the last code counts as cancelled. -/
def ofCode : Nat → TaskState
  | 0 => pending
  | 1 => running
  | 2 => completed
  | 3 => failed
  | _ => cancelled

def name : TaskState → String
  | pending => "pending"
  | running => "running"
  | completed => "completed"
  | failed => "failed"
  | cancelled => "cancelled"

def title : TaskState → String
  | pending => "Pending"
  | running => "Running"
  | completed => "Completed"
  | failed => "Failed"
  | cancelled => "Cancelled"

def ofName? (text : String) : Option TaskState := all.find? (·.name == text)

end TaskState

/-- What happens to a periodic task when one of its runs fails. -/
inductive FailurePolicy where
  /-- The schedule goes on. -/
  | keepGoing
  /-- The task ends as failed. -/
  | stop
  deriving DecidableEq, Repr, Inhabited

namespace FailurePolicy

def all : List FailurePolicy := [keepGoing, stop]

def name : FailurePolicy → String
  | keepGoing => "continue"
  | stop => "cancel"

def ofName? (text : String) : Option FailurePolicy := all.find? (·.name == text)

theorem ofName?_name (policy : FailurePolicy) : ofName? policy.name = some policy := by
  cases policy <;> decide

end FailurePolicy

end TimedTasks
