import TimedTasks.Time.Span

/-!
# What can go wrong with a task

A `TaskError` is what the holder of a task learns in place of a value.  A body
that gives up with a payload yields `panicked`; a payload that is not a text is
reported under one fixed wording.
-/

namespace TimedTasks

/-- What a body leaves behind when it gives up without returning. -/
inductive Payload where
  | shown (text : String)
  /-- Anything that is not a text. -/
  | unshown
  deriving DecidableEq, Repr

def Payload.message : Payload → String
  | .shown text => text
  | .unshown => "non-string panic payload"

/-- Why a task has no value, or why it cannot go on. -/
inductive TaskError where
  | failed (text : String)
  /-- The body gave up without returning. -/
  | panicked (text : String)
  | cancelled
  /-- The task was not done in time. -/
  | timeout (limit : Span)
  | notOneShot
  /-- The next due time cannot be represented. -/
  | outOfRange (period : Span)
  deriving DecidableEq, Repr

namespace TaskError

def ofPayload (payload : Payload) : TaskError := .panicked payload.message

def message : TaskError → String
  | failed text => "task failed: " ++ text
  | panicked text => "task panicked: " ++ text
  | cancelled => "task was cancelled"
  | timeout limit => "timed out after " ++ limit.text ++ " waiting for task"
  | notOneShot => "get() is only available on one-shot tasks"
  | outOfRange period => "next run after a period of " ++ period.text ++ " is out of range"

end TaskError

end TimedTasks
