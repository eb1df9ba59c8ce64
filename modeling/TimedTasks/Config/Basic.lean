import TimedTasks.Config.Policy

/-!
# The configuration of a scheduler

A `Config` has four fields, each with a default.  `Config.validate` says which
configurations a scheduler can run with; a name that is nothing but blanks is
refused before a number of workers that is too large.
-/

namespace TimedTasks

/-- What a scheduler is to be like. -/
structure Config where
  /-- Worker threads; zero stands for as many as the machine has to offer. -/
  workers : Nat := 0
  /-- The bound of the queue; zero stands for no bound. -/
  capacity : Nat := 0
  policy : FailurePolicy := .keepGoing
  threadName : String := "cadence"
  deriving DecidableEq, Repr, Inhabited

namespace Config

def validate (config : Config) : Except ConfigFault Unit :=
  if Text.strip config.threadName = "" then .error .blankThreadName
  else if workerLimit < config.workers then .error (.tooManyWorkers config.workers)
  else .ok ()

/-- The number of workers on a machine that has `cores` of them to offer. -/
def resolvedWorkers (config : Config) (cores : Nat) : Nat :=
  if config.workers = 0 then cores else config.workers

/-- The bound of the queue, if it has one. -/
def boundedCapacity? (config : Config) : Option Nat :=
  if config.capacity = 0 then none else some config.capacity

end Config

end TimedTasks
