import TimedTasks.Task.Error

/-!
# What the body of a task does

A `Script` says for each run of a body, numbered from one, what that run does.  A
run may wait at a gate, move the clock, cancel a task by its name, and submit a
one-shot task without waiting for room, in this order; then it ends with a value, an
error or a payload.
-/

namespace TimedTasks

/-- How a run ends. -/
inductive Ending (α : Type) where
  | value (value : α)
  | error (text : String)
  | panic (payload : Payload)
  deriving Repr

/-- The error that an ending amounts to, if it is one. -/
def Ending.error? {α : Type} : Ending α → Option TaskError
  | .value _ => none
  | .error text => some (.failed text)
  | .panic payload => some (.ofPayload payload)

/-- What one run of a body does. -/
structure Turn (α : Type) where
  /-- The gate that has to be open before the run goes on. -/
  gate? : Option String := none
  advance? : Option Span := none
  cancel? : Option String := none
  /-- The name, delay and script of the one-shot task that the run submits. -/
  submit? : Option (String × Span × (Nat → Turn α)) := none
  ending : Ending α

/-- What each run of a body does; runs are numbered from one. -/
abbrev Script (α : Type) := Nat → Turn α

/-- The script that goes through a list of turns and then repeats the last one. -/
def Script.ofTurns {α : Type} (first : Turn α) (later : List (Turn α)) : Script α := fun run =>
  if run ≤ 1 then first
  else (later[run - 2]?).getD (later.getLast?.getD first)

end TimedTasks
