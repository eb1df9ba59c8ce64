import TimedTasks.CommandLine.Resolution
import TimedTasks.Demo

/-!
# The program

Reads the command line, the environment and perhaps a configuration file, goes through
the demonstration on a clock that is moved from period to period, and prints what there
was to see.
-/

namespace TimedTasks

def variableNames : List String :=
  Config.Field.all.map Config.Field.variableName ++
    CommandLine.Setting.all.filterMap CommandLine.Setting.variableName?

def readEnvironment : IO Environment :=
  variableNames.filterMapM fun variableName => do
    return (← IO.getEnv variableName).map fun text => (variableName, Variable.text text)

def readTextFile (path : String) : IO (Except FileFault String) := do
  try
    match String.fromUTF8? (← IO.FS.readBinFile path) with
    | some text => return .ok text
    | none => return .error .notText
  catch _ => return .error .missing

/-- The files that the options name, read beforehand. -/
def readFiles (options : CommandLine.Options) : IO (String → Except FileFault String) := do
  match options.config? with
  | none => return fun _ => .error .missing
  | some path =>
    let content ← readTextFile path
    return fun other => if other = path then content else .error .missing

/-- The workers of a scheduler that leaves their number to the machine. -/
def defaultWorkers : Nat := 4

/-- Moves of the clock by a period each, which amount to a span together. -/
def movesOf (total period : Span) : List Span :=
  List.replicate (total.nanos / period.nanos) period ++ [⟨total.nanos % period.nanos⟩]

def planOf (options : CommandLine.Options) : Demo.Plan :=
  let period := Span.ofMillis (max 1 options.periodMillis)
  { period
    burst := options.burst
    drain := !options.noDrain
    advances := movesOf (Span.ofSeconds options.runSeconds) period }

def reportLines (report : Demo.Report) : List String :=
  let metrics := report.snapshot.metrics
  let numbers :=
    [("heartbeats", report.heartbeats), ("polls", report.polls), ("failures", report.failures),
      ("burst admitted", report.admitted), ("burst rejected", report.rejected),
      ("abandoned", report.abandoned), ("tasks scheduled", metrics.scheduled),
      ("tasks dispatched", metrics.dispatched), ("tasks completed", metrics.completed),
      ("tasks failed", metrics.failed), ("tasks discarded", metrics.discarded),
      ("worker threads", report.snapshot.workers)]
  numbers.map (fun line => line.1 ++ ": " ++ toString line.2) ++
    ["state: " ++ report.snapshot.lifecycle.name]

def wordingOf (error : SchedulerError) : String :=
  error.message?.getD "config parse error"

/-- Go through the demonstration that the options ask for, or say why not. -/
def demonstrate (options : CommandLine.Options) (files : String → Except FileFault String)
    (environment : Environment) : Except String Demo.Report :=
  match options.resolve files environment with
  | .error (context, error) => .error (context.text ++ ": " ++ wordingOf error)
  | .ok config =>
    let report := do Demo.run (← Scheduler.new config defaultWorkers) (planOf options)
    report.mapError wordingOf

end TimedTasks

open TimedTasks in
def main (words : List String) : IO UInt32 := do
  let environment ← readEnvironment
  match CommandLine.Options.read words environment with
  | .error .helpWanted =>
    IO.println CommandLine.helpText
    return 0
  | .error fault =>
    IO.eprintln ("error: " ++ fault.message)
    return 2
  | .ok options =>
    let files ← readFiles options
    match demonstrate options files environment with
    | .error text =>
      IO.eprintln ("error: " ++ text)
      return 1
    | .ok report =>
      for line in reportLines report do
        IO.println line
      return 0
