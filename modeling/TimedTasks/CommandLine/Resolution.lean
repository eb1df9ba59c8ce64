import TimedTasks.CommandLine.Reading
import TimedTasks.Config.File

/-!
# From options to a configuration

What the command line gives comes first, then the environment, then the configuration
file, then the defaults.  A configuration file has to be valid together with the
environment, before the command line is looked at; without a file only the outcome has
to be valid.
-/

namespace TimedTasks.CommandLine

/-- Where a configuration was found wanting. -/
inductive Context where
  | file (path : String)
  | environment
  | policyOption
  | outcome
  deriving DecidableEq, Repr

def Context.text : Context → String
  | file path => "failed to load config: " ++ path
  | environment => "invalid CADENCE_* environment override"
  | policyOption => "invalid --failure-policy"
  | outcome => "invalid scheduler config"

def within {β : Type} (context : Context) (result : Except SchedulerError β) :
    Except (Context × SchedulerError) β :=
  result.mapError (context, ·)

/-- What lies below the command line, where `parse` says what fields the text of a configuration
file sets. -/
def Options.base (options : Options) (parse : String → Option Layer)
    (files : String → Except FileFault String) (environment : Environment) :
    Except (Context × SchedulerError) Config :=
  match options.config? with
  | some path => within (.file path) (Config.ofFileWith parse (files path) environment)
  | none =>
    within .environment ((({} : Config).overridden environment).mapError SchedulerError.config)

def Options.layer (options : Options) : Except (Context × SchedulerError) Layer :=
  match options.policy? with
  | none => .ok { workers? := options.workers?, capacity? := options.capacity? }
  | some text =>
    within .policyOption ((FailurePolicy.read text).mapError SchedulerError.config) |>.map
      fun policy =>
        { workers? := options.workers?, capacity? := options.capacity?, policy? := some policy }

def Options.resolveWith (options : Options) (parse : String → Option Layer)
    (files : String → Except FileFault String) (environment : Environment) :
    Except (Context × SchedulerError) Config := do
  let below ← options.base parse files environment
  let layer ← options.layer
  let config := layer.over below
  within .outcome (config.validate.mapError SchedulerError.config)
  .ok config

def Options.resolve (options : Options) (files : String → Except FileFault String)
    (environment : Environment) : Except (Context × SchedulerError) Config :=
  options.resolveWith Layer.ofText? files environment

end TimedTasks.CommandLine
