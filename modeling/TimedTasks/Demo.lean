import TimedTasks.Scheduler.Step
import TimedTasks.Session.View

/-!
# The demonstration

A short day in the life of a scheduler, on a clock that is moved by hand: a one-shot
task whose value is waited for, a heartbeat at a fixed rate, a poller with a fixed delay
that fails every third time, and a burst of short tasks.  After a while the heartbeat is
cancelled and the scheduler shuts down.

A plan amounts to a list of errands (`Plan.errands`), and `Day.turn?` is what the caller who
runs them does next.  The caller goes on as soon as a call has been answered, whatever the
scheduler is about; but until the heartbeat has been cancelled, it moves the clock only when
all is quiet.  `run` has the scheduler come to rest before each turn of the caller.
-/

namespace TimedTasks.Demo

/-- What is to be shown. -/
structure Plan where
  period : Span
  burst : Nat
  drain : Bool
  /-- The moves of the clock between the burst and the end. -/
  advances : List Span

/-- What there was to see. -/
structure Report where
  heartbeats : Nat
  polls : Nat
  failures : Nat
  admitted : Nat
  rejected : Nat
  abandoned : Nat
  snapshot : Snapshot

def lastAdvance : Span := Span.ofSeconds 3600

/-! ### The tasks -/

/-- A run that does nothing and succeeds. -/
def idle : Turn Unit := { ending := .value () }

/-- When the one-shot task is due, and how far the clock is moved for it. -/
def answerDelay : Span := Span.ofMillis 200

def answer : Submission Unit :=
  { name := "answer", schedule := .oneShot, delay := answerDelay, script := fun _ => idle }

def heartbeat (plan : Plan) : Submission Unit :=
  { name := "heartbeat", schedule := .fixedRate plan.period, delay := Span.zero,
    script := fun _ => idle }

/-- The poller begins half a period late and fails in every third run. -/
def poller (plan : Plan) : Submission Unit :=
  { name := "poller"
    schedule := .fixedDelay plan.period
    delay := plan.period.half
    script := fun run =>
      if run % 3 = 0 then { ending := .error ("poll " ++ toString run ++ " timed out") } else idle }

def burstTask (index : Nat) : Submission Unit :=
  { name := "burst " ++ toString index, schedule := .oneShot, delay := Span.ofMillis 50,
    script := fun _ => idle }

/-! ### Errands -/

/-- What the caller does. -/
inductive Errand where
  /-- Watch for failures. -/
  | watch
  /-- Schedule a task, and be patient while the queue is full. -/
  | submit (submission : Submission Unit)
  /-- Schedule a task of the burst; it may be rejected. -/
  | trySubmit (submission : Submission Unit)
  /-- Wait for the value of a task. -/
  | get (name : String)
  /-- Move the clock once all is quiet. -/
  | advance (move : Span)
  /-- Move the clock, whatever the scheduler is about. -/
  | forward (move : Span)
  /-- Cancel a task once all is quiet. -/
  | cancel (name : String)
  | shutdown (drain : Bool)
  /-- Wait for the scheduler to stop. -/
  | await

/-- The last errands, when the clock has been moved by all of the plan. -/
def Plan.closing (plan : Plan) : List Errand :=
  [.cancel "heartbeat", .shutdown plan.drain, .forward lastAdvance, .await]

def Plan.errands (plan : Plan) : List Errand :=
  [.watch, .submit answer, .advance answerDelay, .get "answer", .submit (heartbeat plan),
      .submit (poller plan)] ++
    (List.range plan.burst).map (fun index => .trySubmit (burstTask index)) ++
    plan.advances.map .advance ++ plan.closing

/-- How a demonstration ends. -/
inductive Outcome where
  | told (report : Report)
  /-- A call has been refused. -/
  | refused (error : SchedulerError)
  /-- A task whose value was waited for has none. -/
  | failed (error : TaskError)
  /-- A call could not read the clock. -/
  | panicked (fault : ClockFault)

/-- A demonstration under way. -/
structure Day where
  scheduler : Scheduler Unit
  /-- The errands that are left, the current one first. -/
  errands : List Errand
  /-- The call that the current errand waits for. -/
  call? : Option CallId := none
  admitted : Nat := 0
  rejected : Nat := 0
  /-- How many tasks the shutdown has cancelled. -/
  abandoned : Nat := 0
  outcome? : Option Outcome := none

def Plan.day (plan : Plan) (scheduler : Scheduler Unit) : Day :=
  { scheduler, errands := plan.errands }

namespace Day

def runsOf (day : Day) (name : String) : Nat :=
  ((day.scheduler.named? name).bind day.scheduler.record?).elim 0 Record.runs

def failures (day : Day) : Nat :=
  (day.scheduler.agenda.failureLines day.scheduler.agenda.history).length

def report (day : Day) : Report :=
  { heartbeats := day.runsOf "heartbeat"
    polls := day.runsOf "poller"
    failures := day.failures
    admitted := day.admitted
    rejected := day.rejected
    abandoned := day.abandoned
    snapshot := day.scheduler.snapshot }

/-! ### Turns of the caller -/

/-- The current errand is done. -/
def done (day : Day) : Day := { day with errands := day.errands.tail, call? := none }

def ended (day : Day) (outcome : Outcome) : Day := { day with outcome? := some outcome }

/-- Make a call, and wait for its answer. -/
def ask (day : Day) (request : Request Unit) : Day :=
  { day with
    scheduler := day.scheduler.request request
    call? := some day.scheduler.nextCall }

/-- Do something that needs no answer. -/
def act (day : Day) (action : Action Unit) : Option Day :=
  (day.scheduler.step action).map fun scheduler => { day.done with scheduler }

/-- Begin an errand; `none` while it has to wait. -/
def begin (day : Day) : Errand → Option Day
  | .watch => day.act (.observe .calm)
  | .submit submission => some (day.ask (.schedule submission true))
  | .trySubmit submission => some (day.ask (.schedule submission false))
  | .get name =>
    match (day.scheduler.named? name).bind day.scheduler.get? with
    | none => none
    | some (.ok ()) => some day.done
    | some (.error error) => some (day.ended (.failed error))
  | .advance move => if day.scheduler.isSettled then day.act (.advance move) else none
  | .forward move => day.act (.advance move)
  | .cancel name =>
    if day.scheduler.isSettled then
      (day.scheduler.named? name).map fun task => day.ask (.cancel task)
    else none
  | .shutdown drain => some (day.ask (.shutdown drain))
  | .await => if day.scheduler.isTerminated then some (day.ended (.told day.report)) else none

/-- The answer to the call of an errand.  A rejected task of the burst is no failure. -/
def hear (day : Day) (errand : Errand) : Answer → Day
  | .scheduled (.ok _) =>
    match errand with
    | .trySubmit _ => { day.done with admitted := day.admitted + 1 }
    | _ => day.done
  | .scheduled (.error error) =>
    match errand, error with
    | .trySubmit _, .rejected _ => { day.done with rejected := day.rejected + 1 }
    | _, error => day.ended (.refused error)
  | .cancelled _ => day.done
  | .shutDown (.ok tasks) => { day.done with abandoned := tasks.length }
  | .shutDown (.error error) => day.ended (.refused error)
  | .panicked fault => day.ended (.panicked fault)

/-- What the caller does next; `none` while there is something to wait for, and at the end. -/
def turn? (day : Day) : Option Day :=
  match day.outcome?, day.errands, day.call? with
  | none, errand :: _, none => day.begin errand
  | none, errand :: _, some call => (day.scheduler.answer? call).map (day.hear errand)
  | _, _, _ => none

/-! ### One course of events -/

/-- The scheduler goes first. -/
def next? (day : Day) : Option Day :=
  match day.scheduler.next? with
  | some scheduler => some { day with scheduler }
  | none => day.turn?

/-- At most `fuel` steps, as long as anything can move. -/
def playWithin : Nat → Day → Day
  | 0, day => day
  | fuel + 1, day =>
    match day.next? with
    | some after => playWithin fuel after
    | none => day

end Day

/-- More steps than the scheduler can make by itself from one turn of the caller to the next.
No periodic task has more runs ahead of it than periods fit into all moves of the clock, and what
there is to do is at most quadratic in that and in the number of tasks. -/
def Plan.pace (plan : Plan) : Nat :=
  let total := plan.advances.foldl (fun total move => total + move.nanos) lastAdvance.nanos
  let load := 12 * (plan.burst + total / plan.period.nanos + 4)
  load * load

/-- As many steps as there can be: no errand takes more than two turns of the caller. -/
def Plan.budget (plan : Plan) : Nat := 2 * plan.errands.length * plan.pace

/-- Go through a demonstration; one that comes to no report, and in which no call is refused,
is taken for one whose scheduler is closed. -/
def run (scheduler : Scheduler Unit) (plan : Plan) : Except SchedulerError Report :=
  match ((plan.day scheduler).playWithin plan.budget).outcome? with
  | some (.told report) => .ok report
  | some (.refused error) => .error error
  | _ => .error .closed

end TimedTasks.Demo
