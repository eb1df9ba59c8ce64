import TimedTasks.Config.Environment
import TimedTasks.Config.Layer
import TimedTasks.Toml.Document

/-!
# Configuration files

A configuration file is a TOML text with at most four keys of interest.  The numbers
have to be whole and not negative.  The failure policy is a text, or a table whose only
key is the name of the policy and has an empty table or an empty array as its value.
Other keys may hold what they like.

The environment overrides what a file says, and the result has to be valid.  That does not
depend on how a text is read, so that `ofTextWith` and `ofFileWith` take the reader, which
says what fields a text sets, from outside.
-/

namespace TimedTasks

namespace Layer

/-- A whole number that is not negative. -/
def readCount : Toml.Value → Option Nat
  | .integer (.ofNat count) => some count
  | _ => none

def readName : Toml.Value → Option String
  | .text text => some text
  | _ => none

def isHollow : Toml.Value → Bool
  | .table _ entries => entries.isEmpty
  | .array items => items.isEmpty
  | _ => false

def readPolicy : Toml.Value → Option FailurePolicy
  | .text name => FailurePolicy.ofName? name
  | .table _ [(name, value)] => if isHollow value then FailurePolicy.ofName? name else none
  | _ => none

/-- Read a key if it is there; `none` if it is there and cannot be read. -/
def readKey {β : Type} (table : Toml.Table) (key : String) (read : Toml.Value → Option β) :
    Option (Option β) :=
  match table.find? key with
  | none => some none
  | some value => (read value).map some

def ofTable (table : Toml.Table) : Option Layer := do
  let workers? ← readKey table "worker_threads" readCount
  let capacity? ← readKey table "queue_capacity" readCount
  let policy? ← readKey table "periodic_failure_policy" readPolicy
  let threadName? ← readKey table "thread_name_prefix" readName
  some { workers?, capacity?, policy?, threadName? }

/-- What a text says, if it is a configuration file. -/
def ofText? (text : String) : Option Layer := (Toml.readDocument text).bind ofTable

end Layer

namespace Config

/-- A configuration that a scheduler can run with: the one below with the overrides of
the environment. -/
def complete (below : Config) (environment : Environment) : Except SchedulerError Config :=
  match below.overridden environment with
  | .error fault => .error (.config fault)
  | .ok config =>
    match config.validate with
    | .error fault => .error (.config fault)
    | .ok () => .ok config

def ofTextWith (parse : String → Option Layer) (text : String) (environment : Environment) :
    Except SchedulerError Config :=
  match parse text with
  | none => .error .configParse
  | some layer => (layer.over {}).complete environment

def ofText (text : String) (environment : Environment) : Except SchedulerError Config :=
  ofTextWith Layer.ofText? text environment

/-- The configuration that a file describes, given what came of reading it. -/
def ofFileWith (parse : String → Option Layer) (content : Except FileFault String)
    (environment : Environment) : Except SchedulerError Config :=
  match content with
  | .error fault => .error (.configFile fault)
  | .ok text => ofTextWith parse text environment

def ofFile (content : Except FileFault String) (environment : Environment) :
    Except SchedulerError Config :=
  ofFileWith Layer.ofText? content environment

end Config

end TimedTasks
