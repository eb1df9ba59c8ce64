import TimedTasks.Session.View

/-!
# Calls on an agenda, one at a time

A `Workbench` is an agenda without a dispatcher and without workers: each step is one
call.  Calls that have to wait stay asleep in the queue.  After each step every caller
that was woken looks again, takers before producers, until nobody is left awake; those
that got what they waited for are reported with the step.
-/

namespace TimedTasks

/-- One call. -/
inductive BenchCall (α : Type) where
  | add (record : Record α)
  | insert (name : String)
  | tryInsert (name : String)
  | requeue (name : String)
  | remove (name : String)
  | close (drain : Bool)
  | take
  | wake
  | advance (move : Span)
  | capacity
  | start (name : String)
  | run (name : String)
  | execute (name : String)
  | finish (name : String) (outcome : TaskState)
  | rearm (name : String) (next : Moment)
  | cancel (name : String)
  | noteFailure (name : String) (error : TaskError)
  | isDone (name : String)
  | info (name : String)
  | observe (observer : Observer)
  | metrics

/-- What a call answers. -/
inductive BenchReply (α : Type) where
  | nothing
  | truth (value : Bool)
  | capacity (bound? : Option Nat)
  | names (names : List String)
  | inserted (result : Except SchedulerError Unit)
  /-- The name of the task taken; none if nothing will ever come again. -/
  | taken (name? : Option String)
  /-- The call has to wait. -/
  | asleep
  /-- The error with which a body ended, if it ended with one. -/
  | ended (error? : Option TaskError)
  | info (record : Record α)
  | metrics (metrics : Metrics)

/-- An agenda with callers that may be waiting. -/
structure Workbench (α : Type) where
  agenda : Agenda α
  nextCaller : Nat := 0

namespace Workbench

variable {α : Type}

def takerName : String := "wait"

def producerName (name : String) : String := "insert:" ++ name

/-! ### Callers that were woken -/

/-- What a taker that looked is told; none if it fell asleep. -/
def takenReply? (agenda : Agenda α) : Taken → Option (BenchReply α)
  | .task task => some (.taken (some (agenda.nameOf task)))
  | .finished => some (.taken none)
  | .parked => none

/-- What a producer that looked is told; none if it fell asleep. -/
def admittedReply? : Admitted → Option (BenchReply α)
  | .accepted => some (.inserted (.ok ()))
  | .refused error => some (.inserted (.error error))
  | .parked => none

/-- One woken caller looks again. -/
def look? (agenda : Agenda α) : Option (Agenda α × Option (String × BenchReply α)) :=
  match agenda.queue.takers.woken with
  | taker :: _ =>
    match agenda.take taker.caller with
    | .error _ =>
      let takers := agenda.queue.takers.rise fun other => other.caller == taker.caller
      some ({ agenda with queue := { agenda.queue with takers } }, none)
    | .ok (agenda, taken) => some (agenda, (takenReply? agenda taken).map (takerName, ·))
  | [] =>
    match agenda.queue.producers.woken with
    | producer :: _ =>
      let (agenda, admitted) := agenda.resume producer
      some (agenda, (admittedReply? admitted).map (producerName (agenda.nameOf producer.task), ·))
    | [] => none

/-- At most `fuel` looks, and what the callers that were served are told. -/
def settleWithin : Nat → Agenda α → Agenda α × List (String × BenchReply α)
  | 0, agenda => (agenda, [])
  | fuel + 1, agenda =>
    match look? agenda with
    | none => (agenda, [])
    | some (agenda, served?) =>
      let (agenda, served) := settleWithin fuel agenda
      (agenda, served?.toList ++ served)

/-- Everyone who was woken looks again, until nobody is awake.  A look either serves a
caller or puts it back to sleep without waking another, so that with `n` callers there
are at most `(n + 1) * (n + 1)` looks. -/
def settle (agenda : Agenda α) : Agenda α × List (String × BenchReply α) :=
  let callers := agenda.queue.takers.size + agenda.queue.producers.size
  settleWithin ((callers + 1) * (callers + 1)) agenda

/-! ### Calls -/

def onTask (bench : Workbench α) (name : String)
    (call : Agenda α → TaskId → Agenda α × BenchReply α) : Workbench α × BenchReply α :=
  match bench.agenda.named? name with
  | none => (bench, .nothing)
  | some task =>
    let (agenda, reply) := call bench.agenda task
    ({ bench with agenda }, reply)

/-- Do a call that names a task and answers whether it did anything. -/
def ask (bench : Workbench α) (name : String) (call : Agenda α → TaskId → Agenda α × Bool) :
    Workbench α × BenchReply α :=
  bench.onTask name fun agenda task =>
    let (agenda, done) := call agenda task
    (agenda, .truth done)

def newCaller (bench : Workbench α) : Workbench α :=
  { bench with nextCaller := bench.nextCaller + 1 }

/-- One call, before anyone who was woken by it has looked. -/
def call (bench : Workbench α) : BenchCall α → Workbench α × BenchReply α
  | .add record => ({ bench with agenda := (bench.agenda.addRecord record).1 }, .nothing)
  | .insert name =>
    bench.newCaller.onTask name fun agenda task =>
      let (agenda, admitted) := agenda.insert bench.nextCaller task
      (agenda, (admittedReply? admitted).getD .asleep)
  | .tryInsert name =>
    bench.onTask name fun agenda task =>
      match agenda.tryInsert task with
      | .ok agenda => (agenda, .inserted (.ok ()))
      | .error error => (agenda, .inserted (.error error))
  | .requeue name => bench.ask name Agenda.requeue
  | .remove name => bench.ask name Agenda.remove
  | .close drain =>
    let (agenda, removed) := bench.agenda.close drain
    ({ bench with agenda }, .names (removed.map agenda.nameOf))
  | .take =>
    match bench.agenda.take bench.nextCaller with
    | .error _ => (bench.newCaller, .nothing)
    | .ok (agenda, taken) =>
      ({ bench.newCaller with agenda }, (takenReply? agenda taken).getD .asleep)
  | .wake =>
    ({ bench with agenda := { bench.agenda with queue := bench.agenda.queue.wake } }, .nothing)
  | .advance move =>
    match bench.agenda.advance move with
    | .ok agenda => ({ bench with agenda }, .nothing)
    | .error _ => (bench, .nothing)
  | .capacity => (bench, .capacity bench.agenda.queue.capacity?)
  | .start name => bench.ask name Agenda.start
  | .run name =>
    bench.onTask name fun agenda task =>
      let (agenda, _, error?) := agenda.runBody task agenda.reading
      (agenda, .ended error?)
  | .execute name => bench.onTask name fun agenda task => (agenda.execute task, .nothing)
  | .finish name outcome => bench.ask name fun agenda task => agenda.finish task outcome
  | .rearm name next => bench.ask name fun agenda task => agenda.rearm task next
  | .cancel name => bench.ask name Agenda.cancel
  | .noteFailure name error =>
    bench.onTask name fun agenda task => (agenda.noteFailure task error, .nothing)
  | .isDone name =>
    bench.ask name fun agenda task => (agenda, (agenda.records[task]?.map Record.isDone).getD false)
  | .info name =>
    bench.onTask name fun agenda task =>
      (agenda, (agenda.records[task]?.map BenchReply.info).getD .nothing)
  | .observe observer =>
    ({ bench with agenda := { bench.agenda with observer? := some observer } }, .nothing)
  | .metrics => (bench, .metrics bench.agenda.metrics)

/-- What is reported after a call. -/
structure Report (α : Type) where
  reply : BenchReply α
  rows : List (String × Record α)
  size : Nat
  log : List LogLine
  failures : List FailureLine
  /-- The callers that were served, by the names under which they are reported. -/
  served : List (String × BenchReply α)

def step (bench : Workbench α) (request : BenchCall α) : Workbench α × Report α :=
  let known := bench.agenda.history.length
  let (bench, reply) := bench.call request
  let (agenda, served) := settle bench.agenda
  let news := agenda.newsSince known
  ({ bench with agenda },
    { reply
      rows := agenda.rows (List.range agenda.records.size).reverse
      size := agenda.queue.size
      log := agenda.logLines news
      failures := agenda.failureLines news
      served := served.mergeSort fun first second => decide (first.1 ≤ second.1) })

def new (capacity : Nat) (policy : FailurePolicy) : Workbench α :=
  { agenda := { queue := .new capacity, policy } }

end Workbench

end TimedTasks
