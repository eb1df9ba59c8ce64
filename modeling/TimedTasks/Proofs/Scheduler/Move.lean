import Mathlib.Logic.Relation
import TimedTasks.Proofs.Queue.Operation
import TimedTasks.Scheduler.Step

/-!
# What a step can do

A step of a scheduler is one `Move`, except for the run of a body, which is a few moves in
a row: time may pass, a task may be cancelled and pulled out, another one may be submitted,
and then the body ends.  `moves_of_step` takes every step apart.

A move is described by what it changes and by the conditions under which it is made, so
that a property of all reachable states needs one case for each move and no unfolding of
the functions behind it.  `origin` and `action` are the state and the action of the step
that a move belongs to; moves that somebody has to answer for say so in terms of these.
-/

namespace TimedTasks

/-- The record of a task that has just been submitted. -/
def Submission.record {α : Type} (submission : Submission α) (due : Moment) : Record α :=
  { name := submission.name, schedule := submission.schedule, script := submission.script,
    nextRunAt := due }

/-- Whether a caller gets nothing. -/
def Answer.IsRefusal : Answer → Prop
  | .scheduled (.error _) | .cancelled false | .shutDown (.error _) | .panicked _ => True
  | .scheduled (.ok _) | .cancelled true | .shutDown (.ok _) => False

namespace Scheduler

variable {α : Type}

theorem new_eq_ok {config : Config} {cores : Nat} {scheduler : Scheduler α}
    (hcreated : new config cores = .ok scheduler) :
    scheduler =
      { agenda := { queue := .new config.capacity, policy := config.policy }
        config
        workers := config.resolvedWorkers cores } := by
  unfold new at hcreated
  split at hcreated
  · simp at hcreated
  · exact (Except.ok.inj hcreated).symm

theorem mem_calls_of_lookup {scheduler : Scheduler α} {call : CallId} {stage : Call}
    (hlookup : scheduler.calls.lookup call = some stage) : (call, stage) ∈ scheduler.calls := by
  obtain ⟨earlier, later, hcalls, -⟩ := List.lookup_eq_some_iff.mp hlookup
  rw [hcalls]
  exact List.mem_append_right _ (List.mem_cons_self ..)

/-! ## What an action does -/

/-- Whether the record of a task is there and not settled. -/
def IsLive (scheduler : Scheduler α) (task : TaskId) : Prop :=
  ∃ record, scheduler.record? task = some record ∧ record.isDone = false

/-- Whether a worker is in a body and gets past its gate. -/
def Plays (scheduler : Scheduler α) (worker : Nat) (turn : Turn α) : Prop :=
  ∃ job, (scheduler.jobs.find? fun job => job.worker == worker) = some job ∧
    job.stage = .inside (some turn) ∧ scheduler.passesGate turn = true

/-- Whether an action cancels a task: the holder of the task does, or a body. -/
def Cancels (scheduler : Scheduler α) : Action α → TaskId → Prop
  | .request (.cancel asked), task =>
      asked = task ∧ task ∈ scheduler.accepted ∧ scheduler.IsLive task
  | .work worker, task =>
      ∃ turn agenda, scheduler.Plays worker turn ∧
        scheduler.agenda.passTime turn.advance? = .ok agenda ∧
        turn.cancel?.bind scheduler.named? = some task ∧ scheduler.IsLive task
  | _, _ => False

/-- Whether an action submits a task at a moment: a caller does, or a body, which may have moved
the clock before. -/
def Submits (scheduler : Scheduler α) : Action α → Moment → Submission α → Prop
  | .request (.schedule asked _), now, submission =>
      asked = submission ∧ now = scheduler.agenda.reading
  | .work worker, now, submission =>
      ∃ turn agenda name delay script, scheduler.Plays worker turn ∧
        scheduler.agenda.passTime turn.advance? = .ok agenda ∧ now = agenda.reading ∧
        turn.submit? = some (name, delay, script) ∧
        submission = { name, schedule := .oneShot, delay, script }
  | _, _, _ => False

/-- Whether an action pulls a task out of the queue before any taker has been woken. -/
def Removes (scheduler : Scheduler α) : Action α → TaskId → Prop
  | .proceed call, task => scheduler.calls.lookup call = some (.removing task)
  | .work worker, task =>
      ∃ turn, scheduler.Plays worker turn ∧ turn.advance? = none ∧
        turn.cancel?.bind scheduler.named? = some task ∧ scheduler.IsLive task
  | _, _ => False

/-- Whether an action tells the dispatcher to look again, whatever there is to see. -/
def Rouses (scheduler : Scheduler α) : Action α → Prop
  | .announce => True
  | .expire => True
  | .proceed call => ∃ drain, scheduler.calls.lookup call = some (.closing drain)
  | .work worker =>
      ∃ turn move clock, scheduler.Plays worker turn ∧ turn.advance? = some move ∧
        scheduler.agenda.clock.advance move = .ok clock
  | _ => False

/-- The task whose body comes to an end with an action, and how it ends. -/
def ends? (scheduler : Scheduler α) : Action α → Option (TaskId × Ending α)
  | .work worker =>
    match scheduler.jobs.find? fun job => job.worker == worker with
    | some job =>
      match job.stage with
      | .inside (some turn) =>
        if scheduler.passesGate turn then some (job.task, (scheduler.perform turn).2) else none
      | _ => none
    | none => none
  | _ => none

/-- The task whose run is complete with an action: the clock can be read, the run is counted and
the task moves on. -/
def completes? (scheduler : Scheduler α) : Action α → Option TaskId
  | .work worker =>
    match scheduler.jobs.find? fun job => job.worker == worker with
    | some job =>
      match job.stage with
      | .left _ => if scheduler.agenda.clock.isReadable then some job.task else none
      | _ => none
    | none => none
  | _ => none

/-- Whether an action asks a scheduler that has not stopped to stop at once. -/
def Hastens (scheduler : Scheduler α) : Action α → Prop
  | .request (.shutdown false) => scheduler.lifecycle ≠ .stopped
  | _ => False

instance (scheduler : Scheduler α) : (action : Action α) → Decidable (scheduler.Hastens action)
  | .request (.shutdown false) => inferInstanceAs (Decidable (_ ≠ _))
  | .request (.shutdown true) | .request (.schedule _ _) | .request (.cancel _) | .proceed _
  | .advance _ | .announce | .expire | .dispatch | .takeUp _ | .work _ | .release _
  | .observe _ => .isFalse id

/-! ## Moves -/

/-- A number has been given to a new call. -/
def numbered (scheduler : Scheduler α) : Scheduler α :=
  { scheduler with nextCall := scheduler.nextCall + 1 }

/-- Put another queue in the place of the old one. -/
def withQueue (scheduler : Scheduler α) (queue : Queue) : Scheduler α :=
  { scheduler with agenda := { scheduler.agenda with queue } }

/-- Put another record in the place of the old one. -/
def withRecord (scheduler : Scheduler α) (task : TaskId) (record : Record α) : Scheduler α :=
  { scheduler with
    agenda :=
      { scheduler.agenda with records := scheduler.agenda.records.setIfInBounds task record } }

/-- The queue after a task has been let in. -/
def pushed (scheduler : Scheduler α) (task : TaskId) : Queue :=
  scheduler.agenda.queue.push task (scheduler.agenda.periodicOf task) (scheduler.agenda.dueOf task)

/-- What a step consists of. -/
inductive Move (origin : Scheduler α) (action : Action α) (before : Scheduler α) :
    Scheduler α → Prop
  /-- A call is answered at once. -/
  | refused (answer : Answer) (hanswer : answer.IsRefusal)
      (hasked : ∃ asked, action = .request asked) :
      Move origin action before (before.numbered.reply before.nextCall answer)
  /-- A task gets its record. -/
  | drafted {submission : Submission α} {due : Moment} (patient : Bool)
      (hdue : before.firstDue submission = .ok (.ok due))
      (hcause : origin.Submits action before.agenda.reading submission) :
      Move origin action before
        ((before.numbered.draft submission due).1.opened before.nextCall
          (.inserting before.agenda.records.size patient))
  /-- The holder of a task cancels it. -/
  | cancelBegun {task : TaskId} {record : Record α} (hcause : origin.Cancels action task)
      (hrecord : before.record? task = some record) (hlive : record.isDone = false)
      (haccepted : task ∈ before.accepted) (hasked : ∃ asked, action = .request asked) :
      Move origin action before
        ((before.numbered.withRecord task { record with state := .cancelled }).opened
          before.nextCall (.removing task))
  | shutdownBegun {drain : Bool} (hcause : drain = false → origin.Hastens action)
      (hlifecycle : before.lifecycle = .running ∨
        before.lifecycle = .shuttingDown ∧ drain = false)
      (hasked : action = .request (.shutdown drain)) :
      Move origin action before
        (Scheduler.opened
          { before.numbered with lifecycle := before.lifecycle.beginShutdown }
          before.nextCall (if drain then .closing true else .claiming))
  /-- A task is not let into the queue. -/
  | turnedAway {call : CallId} {task : TaskId} {patient : Bool}
      (hcall : (call, .inserting task patient) ∈ before.calls) (error : SchedulerError) :
      Move origin action before (before.reply call (.scheduled (.error error)))
  /-- A task is let into the queue. -/
  | admitted {call : CallId} {task : TaskId} {patient : Bool}
      (hcall : (call, .inserting task patient) ∈ before.calls)
      (hadmission : before.agenda.queue.admission = .accepting)
      (hroom : before.agenda.queue.isFull = false) :
      Move origin action before
        (((before.withQueue (before.pushed task)).accept task).reply call (.scheduled (.ok task)))
  /-- A producer falls asleep. -/
  | parked {call : CallId} {task : TaskId} (hcall : (call, .inserting task true) ∈ before.calls)
      (hadmission : before.agenda.queue.admission = .accepting)
      (hfull : before.agenda.queue.isFull = true) :
      Move origin action before
        ((before.withQueue
          { before.agenda.queue with
            blockedProducers := before.agenda.queue.blockedProducers + 1
            producers := before.agenda.queue.producers.park
              ⟨call, task, before.agenda.periodicOf task⟩ }).goOn call (.parked task))
  | parkedAgain {call : CallId} {task : TaskId} {producer : Producer}
      (hcall : (call, .parked task) ∈ before.calls) (hcaller : producer.caller = call)
      (hwoken : producer ∈ before.agenda.queue.producers.woken)
      (hadmission : before.agenda.queue.admission ≠ .closed)
      (hfull : before.agenda.queue.isFull = true) :
      Move origin action before
        ((before.withQueue
          { before.agenda.queue.risen producer with
            producers := (before.agenda.queue.risen producer).producers.park producer }).goOn
          call (.parked task))
  /-- A producer learns that the queue has been closed. -/
  | resumedRefused {call : CallId} {task : TaskId} {producer : Producer}
      (hcall : (call, .parked task) ∈ before.calls) (hcaller : producer.caller = call)
      (hwoken : producer ∈ before.agenda.queue.producers.woken)
      (hadmission : before.agenda.queue.admission = .closed) :
      Move origin action before
        ((before.withQueue
          { before.agenda.queue.risen producer with
            blockedProducers := before.agenda.queue.blockedProducers - 1
            takers := before.agenda.queue.takers.wakeOne }).reply
          call (.scheduled (.error .closed)))
  /-- A producer that waited is let in. -/
  | resumedAdmitted {call : CallId} {task : TaskId} {producer : Producer}
      (hcall : (call, .parked task) ∈ before.calls) (hcaller : producer.caller = call)
      (hwoken : producer ∈ before.agenda.queue.producers.woken)
      (hadmission : before.agenda.queue.admission ≠ .closed)
      (hroom : before.agenda.queue.isFull = false) :
      Move origin action before
        (((before.withQueue
          ({ before.agenda.queue.risen producer with
              blockedProducers := before.agenda.queue.blockedProducers - 1 }.push
            producer.task producer.periodic (before.agenda.dueOf producer.task))).accept task).reply
          call (.scheduled (.ok task)))
  /-- A cancelled task is pulled out of the queue. -/
  | removed {call : CallId} {task : TaskId} (hcall : (call, .removing task) ∈ before.calls)
      (hcause : origin.Removes action task ∧ origin.agenda.queue = before.agenda.queue) :
      Move origin action before
        ((before.withQueue (before.agenda.queue.apply (.remove task))).reply call (.cancelled true))
  | claimRefused {call : CallId} (hcall : (call, .claiming) ∈ before.calls) :
      Move origin action before (before.reply call (.shutDown (.error .closed)))
  | claimed {call : CallId} (hcall : (call, .claiming) ∈ before.calls) :
      Move origin action before
        (Scheduler.goOn { before with claimed := true } call (.closing false))
  | closed {call : CallId} {drain : Bool} (hcall : (call, .closing drain) ∈ before.calls)
      (hcause : origin.Rouses action) :
      Move origin action before
        ((before.withQueue (before.agenda.queue.close drain).1).goOn call
          (.cancelling drain ((before.agenda.queue.close drain).2.map (·.task)) []))
  /-- A task that was swept out of the queue is cancelled. -/
  | swept {call : CallId} {drain : Bool} {task : TaskId} {left done : List TaskId}
      {record : Record α} (hcall : (call, .cancelling drain (task :: left) done) ∈ before.calls)
      (hrecord : before.record? task = some record) (hlive : record.isDone = false) :
      Move origin action before
        ((before.withRecord task { record with state := .cancelled }).goOn call
          (.cancelling drain left (done ++ [task])))
  | passedOver {call : CallId} {drain : Bool} {task : TaskId} {left done : List TaskId}
      (hcall : (call, .cancelling drain (task :: left) done) ∈ before.calls)
      (hdead : ∀ record, before.record? task = some record → record.isDone = true) :
      Move origin action before (before.goOn call (.cancelling drain left done))
  | sweepDone {call : CallId} {drain : Bool} {done : List TaskId} (metrics : Metrics)
      (hcall : (call, .cancelling drain [] done) ∈ before.calls)
      (hmetrics : ∃ abandoned, metrics = { before.agenda.metrics with abandoned }) :
      Move origin action before
        (Scheduler.reply { before with agenda := { before.agenda with metrics } } call
          (.shutDown (.ok done)))
  | clockMoved {move : Span} {clock : ManualClock}
      (hclock : before.agenda.clock.advance move = .ok clock) (hasked : action = .advance move) :
      Move origin action before
        { before with
          agenda := { before.agenda with clock }
          unannounced := before.unannounced + 1 }
  | announced (hcause : origin.Rouses action)
      (hmoved : action = .announce ∧ before.unannounced ≠ 0) :
      Move origin action before
        { before with
          agenda := { before.agenda with queue := before.agenda.queue.wake }
          unannounced := before.unannounced - 1 }
  | expired (hcause : origin.Rouses action) (hexpires : action = .expire) :
      Move origin action before (before.withQueue (before.agenda.queue.expire dispatcherCaller))
  /-- The dispatcher takes a task that is due. -/
  | took {first : Entry} {rest : List Entry} (hdispatcher : before.dispatcher = .seeking)
      (hawake : before.agenda.queue.isAsleep dispatcherCaller = false)
      (hadmission : before.agenda.queue.admission ≠ .closed)
      (hentries : before.agenda.queue.entries = first :: rest)
      (hdue : first.key.due ≤ before.agenda.reading) (hcause : action = .dispatch)
      (hreadable : before.agenda.clock.isReadable = true) :
      Move origin action before
        { before.withQueue
            { before.agenda.queue.alert dispatcherCaller with
              entries := rest
              index := dropIndex before.agenda.queue.index first.task
              producers := before.agenda.queue.producers.wakeOne } with
          dispatcher := .holding first.task }
  | slept {timer? : Option Moment} (hdispatcher : before.dispatcher = .seeking)
      (hawake : before.agenda.queue.isAsleep dispatcherCaller = false)
      (hadmission : before.agenda.queue.admission ≠ .closed)
      (htimer : timer? = before.agenda.queue.entries.head?.map fun first => first.key.due)
      (hmore : before.agenda.queue.entries = [] → before.agenda.queue.admission = .draining →
        before.agenda.queue.blockedProducers ≠ 0)
      (hearly : ∀ first ∈ before.agenda.queue.entries.head?,
        before.agenda.reading < first.key.due)
      (hreadable : before.agenda.queue.entries ≠ [] → before.agenda.clock.isReadable = true) :
      Move origin action before
        (before.withQueue
          { before.agenda.queue with
            takers := (before.agenda.queue.alert dispatcherCaller).takers.park
              ⟨dispatcherCaller, timer?⟩ })
  /-- The dispatcher cannot read the clock to see whether a task is due. -/
  | broke (hdispatcher : before.dispatcher = .seeking)
      (hawake : before.agenda.queue.isAsleep dispatcherCaller = false)
      (hadmission : before.agenda.queue.admission ≠ .closed)
      (hentries : before.agenda.queue.entries ≠ [])
      (hunreadable : before.agenda.clock.isReadable = false) (hcause : action = .dispatch) :
      Move origin action before { before with dispatcher := .broken }
  /-- The dispatcher learns that nothing will come any more. -/
  | ceased (hdispatcher : before.dispatcher = .seeking)
      (hawake : before.agenda.queue.isAsleep dispatcherCaller = false)
      (hadmission : before.agenda.queue.admission = .closed ∨
        before.agenda.queue.admission = .draining ∧ before.agenda.queue.entries = [] ∧
          before.agenda.queue.blockedProducers = 0) :
      Move origin action before
        { before.withQueue (before.agenda.queue.alert dispatcherCaller) with
          dispatcher := .winding }
  | started {task : TaskId} {record : Record α} (metrics : Metrics)
      (hdispatcher : before.dispatcher = .holding task)
      (hrecord : before.record? task = some record) (hpending : record.state = .pending)
      (hcause : action = .dispatch)
      (hmetrics : metrics =
        { before.agenda.metrics with dispatched := before.agenda.metrics.dispatched + 1 }) :
      Move origin action before
        { before with
          agenda :=
            { before.agenda with
              records := before.agenda.records.setIfInBounds task { record with state := .running }
              metrics }
          backlog := before.backlog ++ [task]
          dispatcher := .seeking }
  | discarded {task : TaskId} (metrics : Metrics) (hdispatcher : before.dispatcher = .holding task)
      (hdead : ∀ record, before.record? task = some record → record.state ≠ .pending)
      (hcause : action = .dispatch)
      (hmetrics : metrics =
        { before.agenda.metrics with discarded := before.agenda.metrics.discarded + 1 }) :
      Move origin action before
        { before with agenda := { before.agenda with metrics }, dispatcher := .seeking }
  | idled (hdispatcher : before.dispatcher = .winding) (hbacklog : before.backlog = [])
      (hjobs : before.jobs = []) :
      Move origin action before { before with dispatcher := .idle }
  | stopped (hdispatcher : before.dispatcher = .idle) (hcause : action = .dispatch) :
      Move origin action before { before with lifecycle := .stopped, dispatcher := .gone }
  /-- A worker takes up a task and enters its body. -/
  | tookUp {position : Nat} {task : TaskId} {worker : Nat}
      (htask : before.backlog[position]? = some task)
      (hworker : before.freeWorkers[position]? = some worker)
      (hcause : action = .takeUp position)
      (hreadable : before.agenda.clock.isReadable = true) :
      Move origin action before
        { before with
          agenda := (before.agenda.enter task worker before.agenda.reading).1
          backlog := before.backlog.eraseIdx position
          jobs := before.jobs ++ [(before.agenda.enter task worker before.agenda.reading).2] }
  /-- A worker takes up a task and cannot read the clock to enter its body. -/
  | lostUnentered {position : Nat} {task : TaskId} {worker : Nat}
      (htask : before.backlog[position]? = some task)
      (hworker : before.freeWorkers[position]? = some worker)
      (hcause : action = .takeUp position)
      (hunreadable : before.agenda.clock.isReadable = false) :
      Move origin action before
        { before with
          backlog := before.backlog.eraseIdx position
          lost := .unentered task :: before.lost }
  | skipped {job : Job α} (hjob : job ∈ before.jobs) (hstage : job.stage = .inside none) :
      Move origin action before (before.goOnWith job (.left none))
  /-- A body ends. -/
  | ended {job : Job α} {turn : Turn α} (ending : Ending α) (hjob : job ∈ before.jobs)
      (hstage : job.stage = .inside (some turn))
      (hcause : origin.ends? action = some (job.task, ending)) :
      Move origin action before
        (Scheduler.goOnWith { before with agenda := before.agenda.leave job.task ending } job
          (.left ending.error?))
  | settled {job : Job α} {error? : Option TaskError} {agenda : Agenda α}
      (hjob : job ∈ before.jobs) (hstage : job.stage = .left error?)
      (hsettle : before.agenda.settle job before.agenda.reading error? = (agenda, false))
      (hcause : origin = before ∧ before.completes? action = some job.task)
      (hreadable : before.agenda.clock.isReadable = true) :
      Move origin action before (Scheduler.release { before with agenda } job.worker)
  | rearmed {job : Job α} {error? : Option TaskError} {agenda : Agenda α}
      (hjob : job ∈ before.jobs) (hstage : job.stage = .left error?)
      (hsettle : before.agenda.settle job before.agenda.reading error? = (agenda, true))
      (hcause : origin = before ∧ before.completes? action = some job.task)
      (hreadable : before.agenda.clock.isReadable = true) :
      Move origin action before (Scheduler.goOnWith { before with agenda } job .rearmed)
  /-- A worker cannot read the clock to count a run whose body has ended. -/
  | lostUncounted {job : Job α} {error? : Option TaskError} (hjob : job ∈ before.jobs)
      (hstage : job.stage = .left error?)
      (hbody : ∃ worker, action = .work worker)
      (hunreadable : before.agenda.clock.isReadable = false) :
      Move origin action before
        (Scheduler.release
          { before with lost := .uncounted job.task error? :: before.lost } job.worker)
  /-- A periodic task returns to the queue. -/
  | requeued {job : Job α} (hjob : job ∈ before.jobs) (hstage : job.stage = .rearmed)
      (hadmission : before.agenda.queue.admission = .accepting)
      (hcancelled : before.agenda.cancelledOf job.task = false) :
      Move origin action before ((before.withQueue (before.pushed job.task)).release job.worker)
  | requeueRefused {job : Job α} (hjob : job ∈ before.jobs) (hstage : job.stage = .rearmed)
      (hrefused : before.agenda.queue.admission ≠ .accepting ∨
        before.agenda.cancelledOf job.task = true) :
      Move origin action before (before.goOnWith job .refused)
  /-- A task that the queue did not take back is cancelled. -/
  | dropped {job : Job α} {record : Record α} (hjob : job ∈ before.jobs)
      (hstage : job.stage = .refused) (hrecord : before.record? job.task = some record)
      (hlive : record.isDone = false) :
      Move origin action before
        ((before.withRecord job.task { record with state := .cancelled }).release job.worker)
  | letGo {job : Job α} (hjob : job ∈ before.jobs) (hstage : job.stage = .refused)
      (hdead : ∀ record, before.record? job.task = some record → record.isDone = true) :
      Move origin action before (before.release job.worker)
  /-- A body moves the clock. -/
  | timePassed {move : Span} {clock : ManualClock}
      (hclock : before.agenda.clock.advance move = .ok clock) (hcause : origin.Rouses action)
      (hbody : ∃ worker, action = .work worker) :
      Move origin action before
        { before with
          agenda := { before.agenda with clock, queue := before.agenda.queue.wake } }
  /-- A body cancels a task. -/
  | cancelledInBody {task : TaskId} {record : Record α} (hcause : origin.Cancels action task)
      (hrecord : before.record? task = some record) (hlive : record.isDone = false) :
      Move origin action before (before.withRecord task { record with state := .cancelled })
  /-- A body pulls the task that it has cancelled out of the queue. -/
  | pulledInBody {task : TaskId} {record : Record α}
      (hrecord : before.record? task = some record) (hcancelled : record.state = .cancelled)
      (hcause : (origin.Removes action task ∧ origin.agenda.queue = before.agenda.queue) ∨
        before.agenda.queue.takers.asleep = []) (hbody : ∃ worker, action = .work worker) :
      Move origin action before (before.withQueue (before.agenda.queue.apply (.remove task)))
  /-- A body submits a task in vain. -/
  | submittedInVain {submission : Submission α} {due : Moment}
      (hdue : before.firstDue submission = .ok (.ok due))
      (hcause : origin.Submits action before.agenda.reading submission) :
      Move origin action before (before.draft submission due).1
  /-- A body submits a task. -/
  | submitted {submission : Submission α} {due : Moment}
      (hdue : before.firstDue submission = .ok (.ok due))
      (hadmission : before.agenda.queue.admission = .accepting)
      (hroom : before.agenda.queue.isFull = false)
      (hcause : origin.Submits action before.agenda.reading submission)
      (hbody : ∃ worker, action = .work worker) :
      Move origin action before
        (((before.draft submission due).1.withQueue
          ((before.draft submission due).1.pushed before.agenda.records.size)).accept
          before.agenda.records.size)
  | noted (name : String) (result : Except SchedulerError Unit)
      (hbody : ∃ worker, action = .work worker) :
      Move origin action before
        { before with agenda := before.agenda.note (.submitted name result) }
  | gateOpened (gate : String) (hasked : action = .release gate) :
      Move origin action before { before with openGates := gate :: before.openGates }
  | observed (observer : Observer) (hasked : action = .observe observer) :
      Move origin action before
        { before with agenda := { before.agenda with observer? := some observer } }

end Scheduler

end TimedTasks
