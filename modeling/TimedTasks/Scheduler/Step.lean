import TimedTasks.Scheduler.Calls

/-!
# Steps of a scheduler

`Scheduler.step` is what one party does while it holds one part of the scheduler.
Every history of a scheduler is a sequence of such steps in some order:
`Reachable config cores` holds of the states that some sequence leads to.

A body is entered in one step and left in another, so that other steps can happen
while it runs, and while it waits at a gate.
-/

namespace TimedTasks

/-- What can happen next. -/
inductive Action (α : Type) where
  /-- A caller makes a call. -/
  | request (request : Request α)
  /-- A call in progress goes on. -/
  | proceed (call : CallId)
  /-- The clock is moved. -/
  | advance (move : Span)
  /-- A move of the clock is announced to the queue. -/
  | announce
  /-- The timer of the sleeping dispatcher runs out. -/
  | expire
  /-- The dispatcher goes on. -/
  | dispatch
  /-- A free worker takes up a task of the backlog. -/
  | takeUp (position : Nat)
  /-- A worker goes on with its job. -/
  | work (worker : Nat)
  /-- A gate is opened for good. -/
  | release (gate : String)
  /-- An observer of failures takes the place of any other. -/
  | observe (observer : Observer)

namespace Scheduler

variable {α : Type}

/-! ### The dispatcher -/

/-- The dispatcher looks for a task that is due. -/
def look (scheduler : Scheduler α) : Scheduler α :=
  match scheduler.agenda.take dispatcherCaller with
  | .error _ => { scheduler with dispatcher := .broken }
  | .ok (agenda, .task task) => { scheduler with agenda, dispatcher := .holding task }
  | .ok (agenda, .finished) => { scheduler with agenda, dispatcher := .winding }
  | .ok (agenda, .parked) => { scheduler with agenda }

/-- The next step of the dispatcher; `none` while it sleeps or waits. -/
def dispatch (scheduler : Scheduler α) : Option (Scheduler α) :=
  match scheduler.dispatcher with
  | .seeking =>
    if scheduler.agenda.queue.isAsleep dispatcherCaller then none else some scheduler.look
  | .holding task =>
    let (agenda, started) := scheduler.agenda.start task
    let metrics := agenda.metrics
    if started then
      let metrics := { metrics with dispatched := metrics.dispatched + 1 }
      some
        { scheduler with
          agenda := { agenda with metrics }
          backlog := scheduler.backlog ++ [task]
          dispatcher := .seeking }
    else
      let metrics := { metrics with discarded := metrics.discarded + 1 }
      some { scheduler with agenda := { agenda with metrics }, dispatcher := .seeking }
  | .winding =>
    if scheduler.backlog.isEmpty ∧ scheduler.jobs.isEmpty then
      some { scheduler with dispatcher := .idle }
    else none
  | .idle => some { scheduler with lifecycle := .stopped, dispatcher := .gone }
  | .gone | .broken => none

/-! ### The workers -/

/-- A free worker takes up a task of the backlog and calls for its body.  The workers take
the tasks in order, but any of those that have just taken one may be the first to call: the
task at `position` can overtake the older ones while there are free workers for them. -/
def takeUp (scheduler : Scheduler α) (position : Nat) : Option (Scheduler α) :=
  match scheduler.backlog[position]?, scheduler.freeWorkers[position]? with
  | some task, some worker =>
    let backlog := scheduler.backlog.eraseIdx position
    match scheduler.agenda.now with
    | .error _ => some { scheduler with backlog, lost := .unentered task :: scheduler.lost }
    | .ok startedAt =>
      let (agenda, job) := scheduler.agenda.enter task worker startedAt
      some { scheduler with agenda, backlog, jobs := scheduler.jobs ++ [job] }
  | _, _ => none

/-- What a turn does to the scheduler, and how it ends.  A move of the clock that is refused
ends the run at once, and so does a submission for which the clock cannot be read. -/
def perform (scheduler : Scheduler α) (turn : Turn α) : Scheduler α × Ending α :=
  match scheduler.agenda.passTime turn.advance? with
  | .error fault => (scheduler, .panic (.shown fault.message))
  | .ok agenda =>
    let scheduler := { scheduler with agenda }
    let scheduler := match turn.cancel?.bind scheduler.named? with
      | some task => scheduler.cancelNow task
      | none => scheduler
    match turn.submit? with
    | none => (scheduler, turn.ending)
    | some (name, delay, script) =>
      match scheduler.submitNow { name, schedule := .oneShot, delay, script } with
      | .error fault => (scheduler, .panic (.shown fault.message))
      | .ok (scheduler, result) =>
        ({ scheduler with agenda := scheduler.agenda.note (.submitted name result) }, turn.ending)

def passesGate (scheduler : Scheduler α) (turn : Turn α) : Bool :=
  match turn.gate? with
  | none => true
  | some gate => scheduler.openGates.contains gate

def release (scheduler : Scheduler α) (worker : Nat) : Scheduler α :=
  { scheduler with jobs := scheduler.jobs.filter fun job => job.worker != worker }

/-- The job of a worker goes on to its next stage. -/
def goOnWith (scheduler : Scheduler α) (job : Job α) (stage : Stage α) : Scheduler α :=
  { scheduler with
    jobs := scheduler.jobs.map fun other =>
      if other.worker = job.worker then { job with stage } else other }

/-- The next step of a job; `none` while it waits at a gate. -/
def work (scheduler : Scheduler α) (job : Job α) : Option (Scheduler α) :=
  match job.stage with
  | .inside none => some (scheduler.goOnWith job (.left none))
  | .inside (some turn) =>
    if scheduler.passesGate turn then
      let (scheduler, ending) := scheduler.perform turn
      let scheduler := { scheduler with agenda := scheduler.agenda.leave job.task ending }
      some (scheduler.goOnWith job (.left ending.error?))
    else none
  | .left error? =>
    match scheduler.agenda.now with
    | .error _ =>
      let lost := .uncounted job.task error? :: scheduler.lost
      some ({ scheduler with lost }.release job.worker)
    | .ok completedAt =>
      match scheduler.agenda.settle job completedAt error? with
      | (agenda, true) => some ({ scheduler with agenda }.goOnWith job .rearmed)
      | (agenda, false) => some ({ scheduler with agenda }.release job.worker)
  | .rearmed =>
    match scheduler.agenda.requeue job.task with
    | (agenda, true) => some ({ scheduler with agenda }.release job.worker)
    | (agenda, false) => some ({ scheduler with agenda }.goOnWith job .refused)
  | .refused =>
    some ({ scheduler with agenda := (scheduler.agenda.cancel job.task).1 }.release job.worker)

/-! ### All steps -/

/-- One step; `none` if it cannot be made now. -/
def step (scheduler : Scheduler α) : Action α → Option (Scheduler α)
  | .request request => some (scheduler.request request)
  | .proceed call =>
    match scheduler.calls.lookup call with
    | some stage => scheduler.proceed call stage
    | none => none
  | .advance move =>
    match scheduler.agenda.clock.advance move with
    | .ok clock =>
      some
        { scheduler with
          agenda := { scheduler.agenda with clock }
          unannounced := scheduler.unannounced + 1 }
    | .error _ => none
  | .announce =>
    if scheduler.unannounced = 0 then none
    else
      some
        { scheduler with
          agenda := { scheduler.agenda with queue := scheduler.agenda.queue.wake }
          unannounced := scheduler.unannounced - 1 }
  | .expire =>
    let queue := scheduler.agenda.queue.expire dispatcherCaller
    some { scheduler with agenda := { scheduler.agenda with queue } }
  | .dispatch => scheduler.dispatch
  | .takeUp position => scheduler.takeUp position
  | .work worker =>
    match scheduler.jobs.find? fun job => job.worker == worker with
    | some job => scheduler.work job
    | none => none
  | .release gate => some { scheduler with openGates := gate :: scheduler.openGates }
  | .observe observer =>
    some { scheduler with agenda := { scheduler.agenda with observer? := some observer } }

/-- The states that a new scheduler can come to. -/
inductive Reachable (config : Config) (cores : Nat) : Scheduler α → Prop
  | start {scheduler : Scheduler α} (created : new config cores = .ok scheduler) :
      Reachable config cores scheduler
  | step {before after : Scheduler α} (reached : Reachable config cores before)
      (action : Action α) (stepped : before.step action = some after) :
      Reachable config cores after

/-! ### Settling -/

/-- The steps that scheduler and callers make by themselves, in the order in which
`next?` prefers them. -/
def candidates (scheduler : Scheduler α) : List (Action α) :=
  .announce :: scheduler.calls.map (fun call => .proceed call.1) ++
    [.dispatch, .takeUp 0] ++ scheduler.jobs.map (fun job => .work job.worker)

/-- The state after the first step that can be made, or `none` if nothing can move. -/
def next? (scheduler : Scheduler α) : Option (Scheduler α) :=
  scheduler.candidates.findSome? scheduler.step

/-- At most `fuel` steps, as long as anything can move.  How many it takes depends on what
the bodies do, so whoever wants a settled state has to say how many there may be. -/
def settleWithin : Nat → Scheduler α → Scheduler α
  | 0, scheduler => scheduler
  | fuel + 1, scheduler =>
    match scheduler.next? with
    | some after => settleWithin fuel after
    | none => scheduler

def isSettled (scheduler : Scheduler α) : Bool := scheduler.next?.isNone

end Scheduler

end TimedTasks
