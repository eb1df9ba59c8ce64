import TimedTasks.Scheduler.Step
import TimedTasks.Session.View

/-!
# Sessions

A `Session` is a scheduler with the callers that still wait for something: for room in
the queue, for the value of a task, or for the scheduler to stop.  In each step one
call is made, and the session goes on until nothing can move.  Then it reports the
reply of the call, the waiting callers that have been served, and what there is to see.

A call that panics, as the clock cannot be read, gets no reply.

A caller with a time limit of a second or more is taken to wait; with a shorter one it
gives up at once, since nothing moves any more when it is asked.
-/

namespace TimedTasks

/-- What is asked of a session. -/
inductive Ask (α : Type) where
  | schedule (submission : Submission α) (patient : Bool)
  | cancel (name : String)
  | get (name : String) (limit? : Option Span)
  | info (name : String)
  /-- Put a task without a name, which has been cancelled already, into the queue. -/
  | insertCancelled (delay : Span)
  | shutdown (drain : Bool)
  | await (limit : Span)
  | advance (move : Span)
  | release (gate : String)
  | observe (observer : Observer)
  | metrics
  | status
  /-- Open the gates at which bodies wait, and have the scheduler abandon all work. -/
  | drop

/-- The standing facts of a scheduler. -/
structure Status where
  isShutdown : Bool
  isTerminated : Bool
  capacity? : Option Nat
  workers : Nat
  policy : FailurePolicy
  threadName : String
  deriving DecidableEq, Repr

/-- What a session replies. -/
inductive Reply (α : Type) where
  | nothing
  | truth (value : Bool)
  | waiting
  | scheduled (result : Except SchedulerError Unit)
  | value (result : Except TaskError α)
  | info (record : Record α) (delay : Span)
  | shutDown (result : Except SchedulerError (List String))
  | metrics (snapshot : Snapshot)
  | status (status : Status)

/-- A caller that waits. -/
inductive Waiter where
  /-- For room in the queue, for a task of this name. -/
  | producer (call : CallId) (name : String)
  /-- For the value of a task. -/
  | holder (task : TaskId) (name : String)
  /-- For the scheduler to stop. -/
  | bystander
  deriving DecidableEq, Repr

def Waiter.label : Waiter → String
  | producer _ name => "schedule:" ++ name
  | holder _ name => "get:" ++ name
  | bystander => "await"

/-- A scheduler with those who wait. -/
structure Session (α : Type) where
  scheduler : Scheduler α
  /-- Whether what is seen is reported in the order in which it happened, or else in the
  order of names and runs. -/
  ordered : Bool := false
  dropped : Bool := false
  waiters : List Waiter := []
  /-- The most steps that may follow one call. -/
  budget : Nat := 1000000000000

namespace Session

variable {α : Type}

/-- A caller with this time limit, or a longer one, is taken to wait. -/
def waitingLimit : Span := Span.ofSeconds 1

/-- Whether a caller with a time limit is taken to wait. -/
def waits (limit : Span) : Bool := waitingLimit.nanos ≤ limit.nanos

def scheduleReply? (scheduler : Scheduler α) (call : CallId) : Option (Reply α) :=
  match scheduler.answer? call with
  | some (.scheduled (.ok _)) => some (.scheduled (.ok ()))
  | some (.scheduled (.error error)) => some (.scheduled (.error error))
  | some (.panicked _) => some .nothing
  | _ => none

/-- What a waiting caller is told, if its time has come. -/
def served? (scheduler : Scheduler α) : Waiter → Option (Reply α)
  | .producer call _ => scheduleReply? scheduler call
  | .holder task _ => (scheduler.get? task).map .value
  | .bystander => if scheduler.isTerminated then some (.truth true) else none

def replyOrWait (session : Session α) (waiter : Waiter) : Session α × Reply α :=
  match served? session.scheduler waiter with
  | some reply => (session, reply)
  | none => ({ session with waiters := session.waiters ++ [waiter] }, .waiting)

/-- Everything that follows from what has happened to the scheduler. -/
def settle (session : Session α) (scheduler : Scheduler α) : Session α :=
  { session with scheduler := scheduler.settleWithin session.budget }

/-- Something happens, and then everything that follows from it. -/
def act (session : Session α) (action : Action α) : Session α :=
  match session.scheduler.step action with
  | some scheduler => session.settle scheduler
  | none => session

/-- Do what names a task, if there is one. -/
def onTask (session : Session α) (name : String) (reply : TaskId → Session α × Reply α) :
    Session α × Reply α :=
  match session.scheduler.named? name with
  | some task => reply task
  | none => (session, .nothing)

/-- Put a task that has been cancelled already into the queue. -/
def insertCancelled (scheduler : Scheduler α) (delay : Span) (now : Moment) :
    Except SchedulerError (Scheduler α) :=
  match now.add? delay with
  | none => .error (.invalidArgument (.delayOutOfRange delay))
  | some due =>
    let (agenda, task) :=
      scheduler.agenda.addRecord
        { name := "", schedule := .oneShot, script := fun _ => { ending := .error "" },
          nextRunAt := due, state := .cancelled }
    match agenda.tryInsert task with
    | .ok agenda => .ok { scheduler with agenda }
    | .error error => .error error

def shutdownReply (scheduler : Scheduler α) (call : CallId) : Reply α :=
  match scheduler.answer? call with
  | some (.shutDown (.ok tasks)) => .shutDown (.ok (tasks.map scheduler.agenda.nameOf))
  | some (.shutDown (.error error)) => .shutDown (.error error)
  | _ => .waiting

/-- Open the gates at which bodies wait, shut down without draining, and let go. -/
def letGo (session : Session α) : Session α :=
  let openGates := session.scheduler.heldGates ++ session.scheduler.openGates
  let session := { session with scheduler := { session.scheduler with openGates }, dropped := true }
  if session.scheduler.isTerminated then session else session.act (.request (.shutdown false))

/-- One call, and everything that follows from it for the scheduler. -/
def ask (session : Session α) : Ask α → Session α × Reply α
  | .schedule submission patient =>
    let call := session.scheduler.nextCall
    let session := session.act (.request (.schedule submission patient))
    session.replyOrWait (.producer call submission.name)
  | .cancel name =>
    session.onTask name fun task =>
      let call := session.scheduler.nextCall
      let session := session.act (.request (.cancel task))
      match session.scheduler.answer? call with
      | some (.cancelled won) => (session, .truth won)
      | _ => (session, .waiting)
  | .get name limit? =>
    session.onTask name fun task =>
      match session.scheduler.get? task, limit? with
      | none, some limit =>
        if waits limit then session.replyOrWait (.holder task name)
        else (session, .value (.error (.timeout limit)))
      | _, _ => session.replyOrWait (.holder task name)
  | .info name =>
    session.onTask name fun task =>
      match session.scheduler.record? task, session.scheduler.agenda.now with
      | some record, .ok now => (session, .info record (record.delay now))
      | _, _ => (session, .nothing)
  | .insertCancelled delay =>
    match session.scheduler.agenda.now with
    | .error _ => (session, .nothing)
    | .ok now =>
      match insertCancelled session.scheduler delay now with
      | .ok scheduler => (session.settle scheduler, .scheduled (.ok ()))
      | .error error => (session, .scheduled (.error error))
  | .shutdown drain =>
    let call := session.scheduler.nextCall
    let session := session.act (.request (.shutdown drain))
    (session, shutdownReply session.scheduler call)
  | .await limit =>
    if session.scheduler.isTerminated || waits limit then session.replyOrWait .bystander
    else (session, .truth false)
  | .advance move => (session.act (.advance move), .nothing)
  | .release gate => (session.act (.release gate), .nothing)
  | .observe observer => (session.act (.observe observer), .nothing)
  | .metrics => (session, .metrics session.scheduler.snapshot)
  | .status =>
    (session,
      .status
        { isShutdown := session.scheduler.isShutdown
          isTerminated := session.scheduler.isTerminated
          capacity? := session.scheduler.config.boundedCapacity?
          workers := session.scheduler.workers
          policy := session.scheduler.config.policy
          threadName := session.scheduler.config.threadName })
  | .drop => (session.letGo, .nothing)

/-! ### Reports -/

/-- What is reported after a step. -/
structure Report (α : Type) where
  reply : Reply α
  rows : List (String × Record α)
  /-- The number of queued tasks and the stage of the scheduler, unless it was dropped. -/
  standing? : Option (Nat × Lifecycle)
  log : List LogLine
  failures : List FailureLine
  submissions : List (String × Except SchedulerError Unit)
  /-- The callers that were served, by the names under which they are reported. -/
  served : List (String × Reply α)

/-- Lines in the order of their names and runs, unless they are to stay in the order in
which they came. -/
def arrange {β : Type} (session : Session α) (key : β → String × Nat) (lines : List β) : List β :=
  if session.ordered then lines
  else lines.mergeSort fun first second => nameRunLE (key first) (key second)

/-- One call, everything that follows from it, and the report. -/
def step (session : Session α) (call : Ask α) : Session α × Report α :=
  let known := session.scheduler.agenda.history.length
  let (session, reply) := session.ask call
  let scheduler := session.scheduler
  let news := scheduler.agenda.newsSince known
  let served := session.waiters.filterMap fun waiter =>
    (served? scheduler waiter).map (waiter.label, ·)
  let waiters := session.waiters.filter fun waiter => (served? scheduler waiter).isNone
  ({ session with waiters },
    { reply
      rows := scheduler.agenda.rows scheduler.accepted
      standing? := if session.dropped then none else some (scheduler.pending, scheduler.lifecycle)
      log :=
        session.arrange (fun line => (line.name, line.run)) (scheduler.agenda.logLines news)
      failures :=
        session.arrange (fun line => (line.name, line.run)) (scheduler.agenda.failureLines news)
      submissions := session.arrange (fun line => (line.1, 0)) (Agenda.submissions news)
      served := served.mergeSort fun first second => decide (first.1 ≤ second.1) })

end Session

end TimedTasks
