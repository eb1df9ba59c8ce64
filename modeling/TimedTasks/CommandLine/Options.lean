import TimedTasks.Config.Environment
import TimedTasks.Text.Number

/-!
# Options of the command line

The command line takes seven settings, each with a value, and one switch.  `Options`
holds what has been asked for, with the defaults of what has not.
-/

namespace TimedTasks.CommandLine

/-- What is asked for on a command line. -/
structure Options where
  config? : Option String := none
  workers? : Option Nat := none
  capacity? : Option Nat := none
  /-- The name of a failure policy, as it is written. -/
  policy? : Option String := none
  /-- How long the periodic tasks run, in seconds. -/
  runSeconds : Nat := 3
  /-- The period of the periodic tasks, in milliseconds. -/
  periodMillis : Nat := 250
  burst : Nat := 32
  noDrain : Bool := false
  deriving DecidableEq, Repr, Inhabited

/-- A setting takes a value. -/
inductive Setting where
  | config
  | workers
  | capacity
  | policy
  | runSeconds
  | periodMillis
  | burst
  deriving DecidableEq, Repr

namespace Setting

def all : List Setting := [config, workers, capacity, policy, runSeconds, periodMillis, burst]

/-- The name of a setting, which stands behind two hyphens. -/
def name : Setting → String
  | config => "config"
  | workers => "workers"
  | capacity => "capacity"
  | policy => "failure-policy"
  | runSeconds => "run-secs"
  | periodMillis => "period-ms"
  | burst => "burst"

/-- The variable that is looked at when a setting is not given. -/
def variableName? : Setting → Option String
  | config => some "CADENCE_CONFIG"
  | runSeconds => some "CADENCE_RUN_SECS"
  | _ => none

/-- Set what a text says; `none` if it should be a number and is not. -/
def write (setting : Setting) (text : String) (options : Options) : Option Options :=
  match setting with
  | config => some { options with config? := some text }
  | workers => (Text.readNumber text).map fun workers => { options with workers? := some workers }
  | capacity =>
    (Text.readNumber text).map fun capacity => { options with capacity? := some capacity }
  | policy => some { options with policy? := some text }
  | runSeconds => (Text.readNumber text).map fun runSeconds => { options with runSeconds }
  | periodMillis => (Text.readNumber text).map fun periodMillis => { options with periodMillis }
  | burst => (Text.readNumber text).map fun burst => { options with burst }

end Setting

/-- Why a command line is not carried out. -/
inductive UsageFault where
  | helpWanted
  /-- There is an option that does not exist, or a word that belongs to no setting. -/
  | unknownArgument
  /-- A setting has no value. -/
  | missingValue
  | invalidValue
  | repeated
  | unexpectedValue
  /-- A variable holds bytes that are no text. -/
  | notText
  deriving DecidableEq, Repr

def Setting.summary : Setting → String
  | config => "Path to a scheduler config file (TOML)"
  | workers => "Worker pool size (0 = available parallelism)"
  | capacity => "Queue capacity (0 = unbounded)"
  | policy => "Periodic failure policy: continue or cancel"
  | runSeconds => "How long to let periodic tasks run, in seconds"
  | periodMillis => "Period of the heartbeat and the poller, in milliseconds"
  | burst => "Number of jobs in the burst"

/-- One line of the help, with the summary in a column of its own. -/
def helpLine (option summary : String) : String :=
  "  " ++ option ++ String.ofList (List.replicate (30 - option.length) ' ') ++ summary

def helpText : String :=
  let settings := Setting.all.map fun setting =>
    helpLine ("--" ++ setting.name ++ " <VALUE>") setting.summary
  let others :=
    [helpLine "--no-drain" "Abandon pending work on shutdown instead of draining it",
      helpLine "-h, --help" "Print help"]
  "Usage: cadence [OPTIONS]\n\nOptions:\n" ++ String.intercalate "\n" (settings ++ others)

def UsageFault.message : UsageFault → String
  | helpWanted => helpText
  | unknownArgument => "unexpected argument found"
  | missingValue => "a value is required and none was supplied"
  | invalidValue => "invalid value"
  | repeated => "the argument cannot be used multiple times"
  | unexpectedValue => "unexpected value found; no more were expected"
  | notText => "invalid UTF-8 was detected in an argument"

end TimedTasks.CommandLine
