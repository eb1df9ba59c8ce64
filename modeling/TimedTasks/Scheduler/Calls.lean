import TimedTasks.Scheduler.State

/-!
# Calls on a scheduler

`Scheduler.request` is the first stage of a call, `Scheduler.proceed` each later one.

The arguments of a call that schedules a task are looked at in a fixed order: a
period of zero is refused even after a shutdown, then the scheduler has to be running,
then the clock is read and the due time of the first run has to be representable, and
for a periodic task that of the second run as well.
-/

namespace TimedTasks

namespace Scheduler

variable {α : Type}

/-! ### Accepting tasks -/

/-- When the first run of a task would be due, if it may be scheduled now. -/
def firstDue (scheduler : Scheduler α) (submission : Submission α) :
    Except ClockFault (Except SchedulerError Moment) :=
  let schedule := submission.schedule
  if schedule.period?.any Span.isZero then
    .ok (.error (.invalidArgument (.zeroPeriod schedule.mode)))
  else
    match scheduler.lifecycle.ensureRunning with
    | .error error => .ok (.error error)
    | .ok () =>
      match scheduler.agenda.now with
      | .error fault => .error fault
      | .ok now =>
        match now.add? submission.delay with
        | none => .ok (.error (.invalidArgument (.delayOutOfRange submission.delay)))
        | some due =>
          match schedule.nextRun due due with
          | .error error => .ok (.error (.invalidArgument (.secondRun error)))
          | .ok _ => .ok (.ok due)

def draft (scheduler : Scheduler α) (submission : Submission α) (due : Moment) :
    Scheduler α × TaskId :=
  let (agenda, task) :=
    scheduler.agenda.addRecord
      { name := submission.name, schedule := submission.schedule,
        script := submission.script, nextRunAt := due }
  ({ scheduler with agenda }, task)

def accept (scheduler : Scheduler α) (task : TaskId) : Scheduler α :=
  let metrics := scheduler.agenda.metrics
  { scheduler with
    agenda :=
      { scheduler.agenda with metrics := { metrics with scheduled := metrics.scheduled + 1 } }
    accepted := task :: scheduler.accepted }

/-- Schedule a task in one go, without waiting for room. -/
def submitNow (scheduler : Scheduler α) (submission : Submission α) :
    Except ClockFault (Scheduler α × Except SchedulerError Unit) :=
  match scheduler.firstDue submission with
  | .error fault => .error fault
  | .ok (.error error) => .ok (scheduler, .error error)
  | .ok (.ok due) =>
    let (drafted, task) := scheduler.draft submission due
    match drafted.agenda.tryInsert task with
    | .error error => .ok (drafted, .error error)
    | .ok agenda => .ok ({ drafted with agenda }.accept task, .ok ())

def cancelNow (scheduler : Scheduler α) (task : TaskId) : Scheduler α :=
  match scheduler.agenda.cancel task with
  | (agenda, true) => { scheduler with agenda := (agenda.remove task).1 }
  | (_, false) => scheduler

/-! ### The first stage of a call -/

def reply (scheduler : Scheduler α) (call : CallId) (answer : Answer) : Scheduler α :=
  { scheduler with
    calls := scheduler.calls.filter fun other => other.1 != call
    answers := (call, answer) :: scheduler.answers }

/-- A call goes on to its next stage. -/
def goOn (scheduler : Scheduler α) (call : CallId) (stage : Call) : Scheduler α :=
  { scheduler with
    calls := scheduler.calls.map fun other => if other.1 = call then (call, stage) else other }

def opened (scheduler : Scheduler α) (call : CallId) (stage : Call) : Scheduler α :=
  { scheduler with calls := scheduler.calls ++ [(call, stage)] }

def request (scheduler : Scheduler α) (request : Request α) : Scheduler α :=
  let call := scheduler.nextCall
  let scheduler := { scheduler with nextCall := call + 1 }
  match request with
  | .schedule submission patient =>
    match scheduler.firstDue submission with
    | .error fault => scheduler.reply call (.panicked fault)
    | .ok (.error error) => scheduler.reply call (.scheduled (.error error))
    | .ok (.ok due) =>
      let (scheduler, task) := scheduler.draft submission due
      scheduler.opened call (.inserting task patient)
  | .cancel task =>
    if task ∈ scheduler.accepted then
      match scheduler.agenda.cancel task with
      | (agenda, true) => { scheduler with agenda }.opened call (.removing task)
      | (_, false) => scheduler.reply call (.cancelled false)
    else scheduler.reply call (.cancelled false)
  | .shutdown drain =>
    let seen := scheduler.lifecycle
    let begun := { scheduler with lifecycle := seen.beginShutdown }
    if seen = .running ∨ (seen = .shuttingDown ∧ !drain) then
      begun.opened call (if drain then .closing true else .claiming)
    else begun.reply call (.shutDown (.error .closed))

/-! ### The later stages -/

def admitted (scheduler : Scheduler α) (call : CallId) (task : TaskId) : Admitted → Scheduler α
  | .accepted => (scheduler.accept task).reply call (.scheduled (.ok task))
  | .refused error => scheduler.reply call (.scheduled (.error error))
  | .parked => scheduler.goOn call (.parked task)

/-- The next stage of a call in progress; `none` while it sleeps. -/
def proceed (scheduler : Scheduler α) (call : CallId) : Call → Option (Scheduler α)
  | .inserting task true =>
    let (agenda, outcome) := scheduler.agenda.insert call task
    some ({ scheduler with agenda }.admitted call task outcome)
  | .inserting task false =>
    match scheduler.agenda.tryInsert task with
    | .ok agenda => some ({ scheduler with agenda }.admitted call task .accepted)
    | .error error => some (scheduler.admitted call task (.refused error))
  | .parked task =>
    match scheduler.agenda.queue.producers.woken.find? fun producer => producer.caller == call with
    | none => none
    | some producer =>
      let (agenda, outcome) := scheduler.agenda.resume producer
      some ({ scheduler with agenda }.admitted call task outcome)
  | .removing task =>
    let (agenda, _) := scheduler.agenda.remove task
    some ({ scheduler with agenda }.reply call (.cancelled true))
  | .claiming =>
    if scheduler.claimed then some (scheduler.reply call (.shutDown (.error .closed)))
    else some ({ scheduler with claimed := true }.goOn call (.closing false))
  | .closing drain =>
    let (agenda, removed) := scheduler.agenda.close drain
    some ({ scheduler with agenda }.goOn call (.cancelling drain removed []))
  | .cancelling drain (task :: left) done =>
    match scheduler.agenda.cancel task with
    | (agenda, true) =>
      some ({ scheduler with agenda }.goOn call (.cancelling drain left (done ++ [task])))
    | (_, false) => some (scheduler.goOn call (.cancelling drain left done))
  | .cancelling drain [] done =>
    let metrics := scheduler.agenda.metrics
    let abandoned := if drain then metrics.abandoned else metrics.abandoned + done.length
    let agenda := { scheduler.agenda with metrics := { metrics with abandoned } }
    some ({ scheduler with agenda }.reply call (.shutDown (.ok done)))

end Scheduler

end TimedTasks
