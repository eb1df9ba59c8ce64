import TimedTasks.Config.Basic
import TimedTasks.Text.Number

/-!
# Overrides from the environment

Four variables override the four fields of a configuration.  They are looked at in the
order of the fields; a variable that cannot be read stops the overriding, and those
before it stay in force.  A variable whose value is not a text counts as unset.
-/

namespace TimedTasks

/-- The value of a variable. -/
inductive Variable where
  | text (text : String)
  /-- Bytes that are no text. -/
  | notText
  deriving DecidableEq, Repr

/-- Variables with their values, each variable once. -/
abbrev Environment := List (String × Variable)

def Environment.text? (environment : Environment) (variableName : String) : Option String :=
  match environment.lookup variableName with
  | some (.text text) => some text
  | _ => none

/-- A field of a configuration that a variable can override. -/
inductive Config.Field where
  | workers
  | capacity
  | policy
  | threadName
  deriving DecidableEq, Repr

namespace Config

/-- All fields, in the order in which they are overridden. -/
def Field.all : List Field := [.workers, .capacity, .policy, .threadName]

def Field.variableName : Field → String
  | workers => "CADENCE_WORKER_THREADS"
  | capacity => "CADENCE_QUEUE_CAPACITY"
  | policy => "CADENCE_FAILURE_POLICY"
  | threadName => "CADENCE_THREAD_NAME_PREFIX"

/-- The number that a variable holds, with blanks around it or without. -/
def readVariable (variableName text : String) : Except ConfigFault Nat :=
  match Text.readNumber (Text.strip text) with
  | some number => .ok number
  | none => .error (.notANumber variableName text)

def Field.write (field : Field) (text : String) (config : Config) : Except ConfigFault Config :=
  match field with
  | workers => (readVariable field.variableName text).map fun workers => { config with workers }
  | capacity => (readVariable field.variableName text).map fun capacity => { config with capacity }
  | policy => (FailurePolicy.read text).map fun policy => { config with policy }
  | threadName => .ok { config with threadName := text }

def overrideFields (environment : Environment) (config : Config) :
    List Field → Config × Except ConfigFault Unit
  | [] => (config, .ok ())
  | field :: fields =>
    match environment.text? field.variableName with
    | none => overrideFields environment config fields
    | some text =>
      match field.write text config with
      | .ok config => overrideFields environment config fields
      | .error fault => (config, .error fault)

/-- Override the fields whose variables are set.  After a fault the configuration has
the fields before it overridden. -/
def override (config : Config) (environment : Environment) : Config × Except ConfigFault Unit :=
  overrideFields environment config Field.all

/-- A configuration with the overrides in force, if all of them can be read. -/
def overridden (config : Config) (environment : Environment) : Except ConfigFault Config :=
  match config.override environment with
  | (config, .ok ()) => .ok config
  | (_, .error fault) => .error fault

end Config

end TimedTasks
