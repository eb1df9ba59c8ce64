import TimedTasks.Config.Basic

/-!
# Layers of a configuration

A `Layer` sets some of the fields of a configuration and leaves the others to what lies
below it.
-/

namespace TimedTasks

/-- Values for some of the fields of a configuration. -/
structure Layer where
  workers? : Option Nat := none
  capacity? : Option Nat := none
  policy? : Option FailurePolicy := none
  threadName? : Option String := none
  deriving DecidableEq, Repr, Inhabited

/-- A configuration with the fields that a layer sets taken from the layer. -/
def Layer.over (layer : Layer) (below : Config) : Config :=
  { workers := layer.workers?.getD below.workers
    capacity := layer.capacity?.getD below.capacity
    policy := layer.policy?.getD below.policy
    threadName := layer.threadName?.getD below.threadName }

@[simp] theorem Layer.empty_over (config : Config) : ({} : Layer).over config = config := rfl

end TimedTasks
