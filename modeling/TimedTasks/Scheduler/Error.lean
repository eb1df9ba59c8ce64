import TimedTasks.Task.Error
import TimedTasks.Task.Mode

/-!
# What a scheduler refuses

Each refusal names its cause; the wording is given once, by `message`.  A
configuration file that does not parse has no wording of its own.
-/

namespace TimedTasks

/-- Why the argument of a call is refused. -/
inductive ArgumentFault where
  | zeroPeriod (mode : TaskMode)
  /-- The first due time cannot be represented. -/
  | delayOutOfRange (delay : Span)
  /-- The second due time of a periodic task cannot be represented. -/
  | secondRun (error : TaskError)
  | other (text : String)
  deriving DecidableEq, Repr

def ArgumentFault.message : ArgumentFault → String
  | zeroPeriod mode => mode.name ++ " period must be positive"
  | delayOutOfRange delay => "delay of " ++ delay.text ++ " is out of range"
  | secondRun error => error.message
  | other text => text

/-- Why a configuration is refused. -/
inductive ConfigFault where
  /-- A policy of this name does not exist. -/
  | unknownPolicy (text : String)
  | notANumber (variableName text : String)
  | blankThreadName
  | tooManyWorkers (count : Nat)
  | other (text : String)
  deriving DecidableEq, Repr

/-- The largest number of worker threads that a scheduler accepts. -/
def workerLimit : Nat := 1024

def ConfigFault.message : ConfigFault → String
  | unknownPolicy text =>
    "unknown failure policy '" ++ text ++ "' (expected 'continue' or 'cancel')"
  | notANumber variableName text => variableName ++ ": expected a number, got '" ++ text ++ "'"
  | blankThreadName => "thread_name_prefix must not be empty"
  | tooManyWorkers count =>
    "worker_threads = " ++ toString count ++ " exceeds the limit of " ++ toString workerLimit
  | other text => text

/-- Why a file cannot be read as a text. -/
inductive FileFault where
  | missing
  | notText
  deriving DecidableEq, Repr

/-- The wording of a file that cannot be read. -/
def FileFault.message : FileFault → String
  | missing => "No such file or directory (os error 2)"
  | notText => "stream did not contain valid UTF-8"

/-- Why a scheduler, or the loading of its configuration, refuses. -/
inductive SchedulerError where
  | invalidArgument (fault : ArgumentFault)
  | closed
  | rejected (capacity : Nat)
  | threadPool (text : String)
  | config (fault : ConfigFault)
  | configParse
  | configFile (fault : FileFault)
  deriving DecidableEq, Repr

def SchedulerError.message? : SchedulerError → Option String
  | invalidArgument fault => some ("invalid argument: " ++ fault.message)
  | closed => some "scheduler is shut down"
  | rejected capacity =>
    some ("task rejected: queue is at capacity (" ++ toString capacity ++ ")")
  | threadPool text => some ("thread pool error: " ++ text)
  | config fault => some ("config error: " ++ fault.message)
  | configParse => none
  | configFile fault => some ("config I/O error: " ++ fault.message)

end TimedTasks
