import TimedTasks.Proofs.Agenda
import TimedTasks.Proofs.Task.Muting
import TimedTasks.Scheduler.Step

/-!
# A scheduler that does not hear how runs end

A scheduler is muted by muting the records and the runs in progress, by counting all runs that have
ended as one sort, and by forgetting the observer and what has been reported to it.  Everything that
the parties of the scheduler do can be done by those of the muted scheduler, and comes to the same
once it is muted.

There is one thing for which the policy is needed.  If a failure is to stop a periodic task, what
becomes of the task depends on how its run has ended; if the scheduler is to keep going, the next
run is due at the same moment either way, and the task goes back into the queue
(`Agenda.settle_muted`).
-/

namespace TimedTasks

variable {α : Type}

/-! ## Counters and events -/

/-- The counters, with all runs that have been counted in one. -/
def Metrics.muted (metrics : Metrics) : Metrics :=
  { metrics with completed := metrics.completed + metrics.failed, failed := 0 }

@[simp] theorem Metrics.muted_muted (metrics : Metrics) : metrics.muted.muted = metrics.muted := rfl

theorem Metrics.recordRun_muted (metrics : Metrics) (mode : TaskMode) (duration : Span)
    (succeeded : Bool) :
    metrics.muted.recordRun mode duration true =
      (metrics.recordRun mode duration succeeded).muted := by
  cases succeeded with
  | true => simp [recordRun, muted, Nat.add_right_comm]
  | false => simp [recordRun, muted, Nat.add_assoc]

/-! ## Agendas -/

def Stage.muted : Stage α → Stage Unit
  | .inside turn? => .inside (turn?.map Turn.muted)
  | .left _ => .left none
  | .rearmed => .rearmed
  | .refused => .refused

def Job.muted (job : Job α) : Job Unit :=
  ⟨job.task, job.worker, job.dueAt, job.startedAt, job.stage.muted⟩

@[simp] theorem Job.muted_task (job : Job α) : job.muted.task = job.task := rfl

@[simp] theorem Stage.muted_muted (stage : Stage α) : stage.muted.muted = stage.muted := by
  cases stage with
  | inside turn? => cases turn? <;> simp [muted]
  | left | rearmed | refused => rfl

theorem Stage.eq_inside_of_muted {stage : Stage α} {quiet : Turn Unit}
    (hmuted : stage.muted = .inside (some quiet)) :
    ∃ turn, stage = .inside (some turn) ∧ turn.muted = quiet := by
  cases stage with
  | inside turn? =>
      obtain ⟨turn, rfl, hturn⟩ := Option.map_eq_some_iff.mp (Stage.inside.inj hmuted)
      exact ⟨turn, rfl, hturn⟩
  | left | rearmed | refused => simp [muted] at hmuted

@[simp] theorem Job.muted_muted (job : Job α) : job.muted.muted = job.muted := by
  simp [muted]

namespace Agenda

/-- The agenda without what it says of the endings of runs, and without an observer. -/
def muted (agenda : Agenda α) : Agenda Unit where
  clock := agenda.clock
  records := agenda.records.map Record.muted
  queue := agenda.queue
  metrics := agenda.metrics.muted
  policy := agenda.policy
  history := agenda.history.filter fun event => !event.isReport

variable (agenda : Agenda α) (task : TaskId)

@[simp] theorem muted_clock : agenda.muted.clock = agenda.clock := rfl

@[simp] theorem muted_queue : agenda.muted.queue = agenda.queue := rfl

@[simp] theorem muted_now : agenda.muted.now = agenda.now := rfl

@[simp] theorem muted_records :
    agenda.muted.records[task]? = agenda.records[task]?.map Record.muted :=
  Array.getElem?_map ..

@[simp] theorem muted_muted : agenda.muted.muted = agenda.muted := by
  simp [muted, Function.comp_def]

@[simp] theorem muted_nameOf : agenda.muted.nameOf task = agenda.nameOf task := by
  rw [nameOf, nameOf, muted_records, Option.map_map]
  rfl

@[simp] theorem muted_dueOf : agenda.muted.dueOf task = agenda.dueOf task := by
  rw [dueOf, dueOf, muted_records, Option.map_map]
  rfl

@[simp] theorem muted_periodicOf : agenda.muted.periodicOf task = agenda.periodicOf task := by
  rw [periodicOf, periodicOf, muted_records, Option.map_map]
  rfl

@[simp] theorem muted_cancelledOf : agenda.muted.cancelledOf task = agenda.cancelledOf task := by
  rw [cancelledOf, cancelledOf, muted_records, Option.map_map]
  simp [Function.comp_def]

/-! ### Records -/

theorem addRecord_muted (record : Record α) :
    agenda.muted.addRecord record.muted =
      ((agenda.addRecord record).1.muted, (agenda.addRecord record).2) := by
  simp [addRecord, muted]

theorem withRecord_muted (record : Record α) :
    agenda.muted.withRecord task record.muted = (agenda.withRecord task record).muted := by
  simp [withRecord, muted]

theorem attempt_muted {move : Record α → Option (Record α)}
    {quiet : Record Unit → Option (Record Unit)}
    (hmove : ∀ record, agenda.records[task]? = some record →
      quiet record.muted = (move record).map Record.muted) :
    agenda.muted.attempt task quiet =
      ((agenda.attempt task move).1.muted, (agenda.attempt task move).2) := by
  unfold attempt
  cases hrecord : agenda.records[task]? with
  | none => simp [hrecord]
  | some record =>
      rw [muted_records, hrecord, Option.map_some, Option.bind_some, hmove record hrecord,
        Option.bind_some]
      cases move record with
      | none => rfl
      | some moved => exact congrArg (·, true) (agenda.withRecord_muted task moved)

theorem start_muted :
    agenda.muted.start task = ((agenda.start task).1.muted, (agenda.start task).2) :=
  agenda.attempt_muted task fun record _ => record.start?_muted

theorem cancel_muted :
    agenda.muted.cancel task = ((agenda.cancel task).1.muted, (agenda.cancel task).2) :=
  agenda.attempt_muted task fun record _ => record.cancel?_muted

theorem rearm_muted (next : Moment) :
    agenda.muted.rearm task next =
      ((agenda.rearm task next).1.muted, (agenda.rearm task next).2) := by
  unfold rearm
  cases hrecord : agenda.records[task]? with
  | none => simp [hrecord]
  | some record =>
      rw [muted_records, hrecord, Option.map_some]
      dsimp only
      rw [record.rearm_muted next]
      exact congrArg (·, _) (agenda.withRecord_muted task _)

theorem records_update_muted (change : Record α → Record α) (other : TaskId) :
    (agenda.update task change).muted.records[other]? =
      if task = other then agenda.records[other]?.map fun record => (change record).muted
      else agenda.muted.records[other]? := by
  rw [muted_records, muted_records, update, Array.getElem?_modify]
  split
  · exact Option.map_map ..
  · rfl

theorem leave_muted (ending : Ending α) :
    agenda.muted.leave task (.value ()) = (agenda.leave task ending).muted := by
  have hrecords : ∀ other : TaskId, (agenda.muted.leave task (.value ())).records[other]? =
      (agenda.leave task ending).muted.records[other]? := by
    intro other
    refine .trans ?_ (agenda.records_update_muted task _ other).symm
    rw [leave, update, Array.getElem?_modify, muted_records, Option.map_map]
    simp only [Function.comp_def, fun record : Record α => record.leave_muted ending]
  exact congrArg (fun records => ({ agenda.muted with records } : Agenda Unit))
    (Array.ext_getElem? hrecords)

/-- It does not matter how a run ends of which nobody hears. -/
theorem muted_leave (quiet : Ending Unit) (ending : Ending α) :
    (agenda.muted.leave task quiet).muted = (agenda.leave task ending).muted := by
  rw [← leave_muted, ← leave_muted, muted_muted]

theorem noteFailure_muted (error : TaskError) :
    (agenda.noteFailure task error).muted = agenda.muted := by
  have hrecords : ∀ other : TaskId, (agenda.noteFailure task error).muted.records[other]? =
      agenda.muted.records[other]? := by
    intro other
    refine (agenda.records_update_muted task _ other).trans ?_
    simp only [Record.noteFailure_muted]
    split
    · exact (agenda.muted_records other).symm
    · rfl
  exact congrArg (fun records => ({ agenda.muted with records } : Agenda Unit))
    (Array.ext_getElem? hrecords)

/-! ### Queue and clock -/

theorem insert_muted (caller : Nat) :
    agenda.muted.insert caller task =
      ((agenda.insert caller task).1.muted, (agenda.insert caller task).2) := by
  simp only [insert, muted_periodicOf, muted_dueOf]
  rfl

theorem resume_muted (producer : Producer) :
    agenda.muted.resume producer =
      ((agenda.resume producer).1.muted, (agenda.resume producer).2) := by
  simp only [resume, muted_dueOf]
  rfl

theorem tryInsert_muted :
    agenda.muted.tryInsert task = (agenda.tryInsert task).map muted := by
  simp only [tryInsert, muted_periodicOf, muted_dueOf, muted_queue]
  cases agenda.queue.tryInsert task (agenda.periodicOf task) (agenda.dueOf task) <;> rfl

theorem requeue_muted :
    agenda.muted.requeue task =
      ((agenda.requeue task).1.muted, (agenda.requeue task).2) := by
  simp only [requeue, muted_periodicOf, muted_cancelledOf, muted_dueOf, muted_queue]
  split <;> rfl

theorem take_muted (caller : Nat) :
    agenda.muted.take caller =
      (agenda.take caller).map fun taken => (taken.1.muted, taken.2) := by
  unfold take
  rw [muted_queue, muted_now]
  split <;> rfl

theorem remove_muted :
    agenda.muted.remove task = ((agenda.remove task).1.muted, (agenda.remove task).2) := by
  simp only [remove, muted_queue]
  split <;> rfl

theorem passTime_muted (move? : Option Span) :
    agenda.muted.passTime move? = (agenda.passTime move?).map muted := by
  cases move? with
  | none => rfl
  | some move =>
      simp only [passTime, advance, muted_clock]
      cases agenda.clock.advance move <;> rfl

/-! ### Stages of a run -/

theorem note_muted {event : Event} (hevent : event.isReport = false) :
    agenda.muted.note event = (agenda.note event).muted := by
  simp [note, muted, hevent]

theorem report_muted (error : TaskError) : (agenda.report task error).muted = agenda.muted := by
  unfold report
  split
  · simp [note, muted, Event.isReport]
  · rfl

theorem enter_muted (worker : Nat) (startedAt : Moment) :
    agenda.muted.enter task worker startedAt =
      ((agenda.enter task worker startedAt).1.muted,
        (agenda.enter task worker startedAt).2.muted) := by
  unfold enter
  rw [muted_records]
  cases agenda.records[task]? with
  | none => simp [Job.muted, Stage.muted]
  | some record =>
      rw [Option.map_some]
      dsimp only
      rw [record.enter_muted]
      have hset := agenda.withRecord_muted task record.enter.1
      generalize record.enter = entered at hset ⊢
      obtain ⟨moved, _ | ⟨run, turn⟩⟩ := entered
      · dsimp only [Option.map_none] at hset ⊢
        rw [muted_dueOf]
        exact congrArg (·, _) hset
      · dsimp only [Option.map_some] at hset ⊢
        have hevent : (Event.entered task run startedAt (agenda.dueOf task) worker).isReport =
            false := rfl
        have hnote := (agenda.withRecord task moved).note_muted hevent
        rw [← hset] at hnote
        rw [muted_dueOf]
        exact congrArg (·, _) hnote

/-- Whatever a run has ended with, it counts as one. -/
theorem account_muted (job : Job α) (completedAt : Moment) (error? : Option TaskError) :
    agenda.muted.account job.muted completedAt none =
      (agenda.account job completedAt error?).muted := by
  unfold account
  rw [Job.muted_task, muted_records]
  cases agenda.records[job.task]? with
  | none => rfl
  | some record =>
      have hcount := agenda.metrics.recordRun_muted record.mode
        (completedAt.since job.startedAt) error?.isNone
      have hcounted := congrArg
        (fun metrics => ({ agenda.muted with metrics } : Agenda Unit)) hcount
      cases error? with
      | none => exact hcounted
      | some error =>
          dsimp only
          rw [report_muted]
          exact hcounted

theorem finish_muted {record : Record α} (hrecord : agenda.records[task]? = some record)
    (outcome : TaskState) {quiet : TaskState} (hquiet : quiet = outcome.muted record.isPeriodic) :
    agenda.muted.finish task quiet =
      ((agenda.finish task outcome).1.muted, (agenda.finish task outcome).2) := by
  refine agenda.attempt_muted task fun found hfound => ?_
  obtain rfl := Option.some.inj (hrecord.symm.trans hfound)
  rw [hquiet]
  exact record.finish?_muted outcome

theorem carryOut_muted {record : Record α} (hrecord : agenda.records[task]? = some record)
    {verdict : Verdict} (hgiveUp : ∀ error, verdict = .giveUp error → record.isPeriodic = true) :
    (agenda.muted.carryOut task (verdict.muted record.isPeriodic)).1.muted =
        (agenda.carryOut task verdict).1.muted ∧
      (agenda.muted.carryOut task (verdict.muted record.isPeriodic)).2 =
        (agenda.carryOut task verdict).2 := by
  cases verdict with
  | giveUp error =>
      -- The failure is noted on either side, and then forgotten.
      have hmoved : ∀ {β : Type} (agenda : Agenda β) (record : Record β),
          agenda.records[task]? = some record → record.isPeriodic = true →
            (agenda.carryOut task (.giveUp error)).1.muted =
              (agenda.muted.finish task .failed).1 := by
        intro β agenda record hrecord hperiodic
        have hnoted : ((agenda.noteFailure task error).report task error).muted = agenda.muted :=
          (report_muted ..).trans (agenda.noteFailure_muted task error)
        have hfound : ((agenda.noteFailure task error).report task error).records[task]? =
            some (record.noteFailure error) := by
          rw [records_report]
          exact (records_update hrecord _ task).trans (if_pos rfl)
        have hfailed : TaskState.failed = TaskState.failed.muted
            (record.noteFailure error).isPeriodic := by
          rw [show (record.noteFailure error).isPeriodic = true from hperiodic]
          rfl
        have hfinish := Agenda.finish_muted _ task hfound .failed hfailed
        rw [hnoted] at hfinish
        exact (congrArg Prod.fst hfinish).symm
      have hperiodic := hgiveUp error rfl
      refine ⟨?_, rfl⟩
      have hquiet : agenda.muted.records[task]? = some record.muted := by
        rw [muted_records, hrecord, Option.map_some]
      refine (hmoved agenda.muted record.muted hquiet hperiodic).trans ?_
      rw [muted_muted]
      exact (hmoved agenda record hrecord hperiodic).symm
  | finish outcome =>
      have hfinish := agenda.finish_muted task hrecord outcome rfl
      simp only [carryOut, Verdict.muted, hfinish, muted_muted, and_self]
  | rearm next =>
      simp only [carryOut, Verdict.muted, rearm_muted, muted_muted, and_self]

/-- What follows a run does not depend on its ending, unless a failure is to stop the task. -/
theorem settle_muted (hpolicy : agenda.policy = .keepGoing) (job : Job α) (completedAt : Moment)
    (error? : Option TaskError) :
    (agenda.muted.settle job.muted completedAt none).1.muted =
        (agenda.settle job completedAt error?).1.muted ∧
      (agenda.muted.settle job.muted completedAt none).2 =
        (agenda.settle job completedAt error?).2 := by
  unfold settle
  rw [Job.muted_task, muted_records]
  cases hrecord : agenda.records[job.task]? with
  | none => exact ⟨agenda.muted_muted, rfl⟩
  | some record =>
      have hcounted : (agenda.account job completedAt error?).records[job.task]? =
          some record := by
        rw [records_account, hrecord]
      have hgiveUp : ∀ error,
          record.schedule.verdict .keepGoing job.dueAt completedAt error? = .giveUp error →
            record.isPeriodic = true := fun _ => Schedule.isPeriodic_of_giveUp
      have hcarried := carryOut_muted _ job.task hcounted hgiveUp
      rw [← account_muted, Record.isPeriodic, ← Schedule.verdict_muted] at hcarried
      rw [← hpolicy] at hcarried
      exact hcarried

end Agenda

/-! ## Schedulers -/

def Submission.muted (submission : Submission α) : Submission Unit where
  name := submission.name
  schedule := submission.schedule
  delay := submission.delay
  script := Script.muted submission.script

def Request.muted : Request α → Request Unit
  | .schedule submission patient => .schedule submission.muted patient
  | .cancel task => .cancel task
  | .shutdown drain => .shutdown drain

/-- The same action, on tasks whose bodies end in any way. -/
def Action.muted : Action α → Action Unit
  | .request asked => .request asked.muted
  | .proceed call => .proceed call
  | .advance move => .advance move
  | .announce => .announce
  | .expire => .expire
  | .dispatch => .dispatch
  | .takeUp position => .takeUp position
  | .work worker => .work worker
  | .release gate => .release gate
  | .observe observer => .observe observer

theorem Action.eq_work_of_muted {action : Action α} {worker : Nat}
    (hmuted : action.muted = .work worker) : action = .work worker := by
  cases action with
  | work => exact congrArg Action.work (Action.work.inj hmuted)
  | _ => simp [muted] at hmuted

def LostRun.muted : LostRun → LostRun
  | .unentered task => .unentered task
  | .uncounted task _ => .uncounted task none

@[simp] theorem LostRun.muted_muted (run : LostRun) : run.muted.muted = run.muted := by
  cases run <;> rfl

@[simp] theorem LostRun.muted_task (run : LostRun) : run.muted.task = run.task := by
  cases run <;> rfl

namespace Scheduler

/-- The scheduler without what it says of the endings of runs. -/
def muted (scheduler : Scheduler α) : Scheduler Unit where
  agenda := scheduler.agenda.muted
  config := scheduler.config
  workers := scheduler.workers
  lifecycle := scheduler.lifecycle
  claimed := scheduler.claimed
  dispatcher := scheduler.dispatcher
  backlog := scheduler.backlog
  jobs := scheduler.jobs.map Job.muted
  lost := scheduler.lost.map LostRun.muted
  calls := scheduler.calls
  nextCall := scheduler.nextCall
  answers := scheduler.answers
  accepted := scheduler.accepted
  unannounced := scheduler.unannounced
  openGates := scheduler.openGates

variable (scheduler : Scheduler α)

@[simp] theorem muted_agenda : scheduler.muted.agenda = scheduler.agenda.muted := rfl

@[simp] theorem muted_lifecycle : scheduler.muted.lifecycle = scheduler.lifecycle := rfl

@[simp] theorem muted_claimed : scheduler.muted.claimed = scheduler.claimed := rfl

@[simp] theorem muted_dispatcher : scheduler.muted.dispatcher = scheduler.dispatcher := rfl

@[simp] theorem muted_backlog : scheduler.muted.backlog = scheduler.backlog := rfl

@[simp] theorem muted_jobs : scheduler.muted.jobs = scheduler.jobs.map Job.muted := rfl

@[simp] theorem muted_calls : scheduler.muted.calls = scheduler.calls := rfl

@[simp] theorem muted_accepted : scheduler.muted.accepted = scheduler.accepted := rfl

@[simp] theorem muted_unannounced : scheduler.muted.unannounced = scheduler.unannounced := rfl

theorem record?_muted (task : TaskId) :
    scheduler.muted.record? task = (scheduler.record? task).map Record.muted :=
  scheduler.agenda.muted_records task

theorem named?_muted : scheduler.muted.named? = scheduler.named? := by
  funext name
  simp only [named?, muted, Agenda.muted_nameOf]

theorem freeWorkers_muted : scheduler.muted.freeWorkers = scheduler.freeWorkers := by
  simp only [freeWorkers, muted, List.any_map]
  rfl

theorem active_muted : scheduler.muted.active = scheduler.active := by
  simp only [active, muted, List.length_map]

theorem lostTasks_muted : scheduler.muted.lostTasks = scheduler.lostTasks := by
  simp only [lostTasks, muted, List.map_map]
  exact List.map_congr_left fun run _ => run.muted_task

theorem find?_muted (worker : Nat) :
    (scheduler.muted.jobs.find? fun job => job.worker == worker) =
      (scheduler.jobs.find? fun job => job.worker == worker).map Job.muted :=
  List.find?_map ..

theorem passesGate_muted (turn : Turn α) :
    scheduler.muted.passesGate turn.muted = scheduler.passesGate turn := by
  simp only [passesGate, muted, Turn.muted_gate?]

/-! ### Calls -/

theorem firstDue_muted (submission : Submission α) :
    scheduler.muted.firstDue submission.muted = scheduler.firstDue submission := rfl

theorem draft_muted (submission : Submission α) (due : Moment) :
    scheduler.muted.draft submission.muted due =
      ((scheduler.draft submission due).1.muted, (scheduler.draft submission due).2) := by
  have hadd := scheduler.agenda.addRecord_muted
    { name := submission.name, schedule := submission.schedule, script := submission.script,
      nextRunAt := due }
  exact congrArg (fun added : Agenda Unit × TaskId =>
    (({ scheduler.muted with agenda := added.1 } : Scheduler Unit), added.2)) hadd

theorem submitNow_muted (submission : Submission α) :
    scheduler.muted.submitNow submission.muted =
      (scheduler.submitNow submission).map fun submitted => (submitted.1.muted, submitted.2) := by
  unfold submitNow
  rw [firstDue_muted]
  match scheduler.firstDue submission with
  | .error fault => rfl
  | .ok (.error error) => rfl
  | .ok (.ok due) =>
      dsimp only
      rw [draft_muted]
      dsimp only
      rw [muted_agenda, Agenda.tryInsert_muted]
      cases (scheduler.draft submission due).1.agenda.tryInsert
        (scheduler.draft submission due).2 <;> rfl

theorem note_submitted_muted (name : String) (result : Except SchedulerError Unit) :
    ({ scheduler.muted with agenda := scheduler.muted.agenda.note (.submitted name result) } :
      Scheduler Unit) =
    muted { scheduler with agenda := scheduler.agenda.note (.submitted name result) } :=
  congrArg (fun agenda => ({ scheduler.muted with agenda } : Scheduler Unit))
    (Agenda.note_muted _ rfl)

theorem cancelNow_muted (task : TaskId) :
    scheduler.muted.cancelNow task = (scheduler.cancelNow task).muted := by
  unfold cancelNow
  rw [muted_agenda, Agenda.cancel_muted]
  generalize scheduler.agenda.cancel task = cancelled
  obtain ⟨agenda, _ | _⟩ := cancelled
  · rfl
  · dsimp only
    rw [Agenda.remove_muted]
    rfl

theorem request_muted (request : Request α) :
    scheduler.muted.request request.muted = (scheduler.request request).muted := by
  cases request with
  | schedule submission patient =>
      simp only [Scheduler.request, Request.muted]
      rw [show ({ scheduler.muted with nextCall := scheduler.muted.nextCall + 1 } :
          Scheduler Unit) = muted { scheduler with nextCall := scheduler.nextCall + 1 } from rfl,
        firstDue_muted]
      split
      · rfl
      · rfl
      · rw [draft_muted]
        rfl
  | cancel task =>
      simp only [Scheduler.request, Request.muted]
      rw [muted_accepted, muted_agenda, Agenda.cancel_muted]
      split
      · generalize scheduler.agenda.cancel task = cancelled
        obtain ⟨agenda, _ | _⟩ := cancelled <;> rfl
      · rfl
  | shutdown drain =>
      simp only [Scheduler.request, Request.muted]
      rw [muted_lifecycle]
      split <;> rfl

theorem admitted_muted (call : CallId) (task : TaskId) (outcome : Admitted) :
    scheduler.muted.admitted call task outcome = (scheduler.admitted call task outcome).muted := by
  cases outcome <;> rfl

theorem proceed_muted (call : CallId) (stage : Call) :
    scheduler.muted.proceed call stage = (scheduler.proceed call stage).map muted := by
  cases stage with
  | inserting task patient =>
      cases patient with
      | true =>
          simp only [proceed, muted_agenda, Agenda.insert_muted]
          exact congrArg some (admitted_muted
            { scheduler with agenda := (scheduler.agenda.insert call task).1 } call task _)
      | false =>
          simp only [proceed, muted_agenda, Agenda.tryInsert_muted]
          cases scheduler.agenda.tryInsert task <;> rfl
  | parked task =>
      simp only [proceed]
      rw [muted_agenda, Agenda.muted_queue]
      split
      · rfl
      · rename_i producer hproducer
        rw [Agenda.resume_muted]
        exact congrArg some (admitted_muted
          { scheduler with agenda := (scheduler.agenda.resume producer).1 } call task _)
  | removing task =>
      simp only [proceed, muted_agenda, Agenda.remove_muted]
      rfl
  | claiming =>
      simp only [proceed]
      rw [muted_claimed]
      split <;> rfl
  | closing drain => rfl
  | cancelling drain left done =>
      cases left with
      | nil => rfl
      | cons task left =>
          simp only [proceed, muted_agenda, Agenda.cancel_muted]
          generalize scheduler.agenda.cancel task = cancelled
          obtain ⟨agenda, _ | _⟩ := cancelled <;> rfl

/-! ### Dispatcher and workers -/

theorem look_muted : scheduler.muted.look = scheduler.look.muted := by
  unfold look
  rw [muted_agenda, Agenda.take_muted]
  match scheduler.agenda.take dispatcherCaller with
  | .error _ => rfl
  | .ok (_, .task _) => rfl
  | .ok (_, .finished) => rfl
  | .ok (_, .parked) => rfl

theorem dispatch_muted : scheduler.muted.dispatch = scheduler.dispatch.map muted := by
  unfold dispatch
  rw [muted_dispatcher]
  cases scheduler.dispatcher with
  | seeking =>
      dsimp only
      rw [muted_agenda, Agenda.muted_queue, look_muted]
      split <;> rfl
  | holding task =>
      dsimp only
      rw [muted_agenda, Agenda.start_muted]
      generalize scheduler.agenda.start task = started
      obtain ⟨agenda, _ | _⟩ := started <;> rfl
  | winding =>
      dsimp only
      rw [muted_backlog, muted_jobs, List.isEmpty_map]
      split <;> rfl
  | idle | gone | broken => rfl

theorem takeUp_muted (position : Nat) :
    scheduler.muted.takeUp position = (scheduler.takeUp position).map muted := by
  unfold takeUp
  rw [freeWorkers_muted, muted_backlog]
  split
  · rw [muted_agenda, Agenda.muted_now]
    cases scheduler.agenda.now with
    | error fault => rfl
    | ok startedAt => simp [Agenda.enter_muted, muted]
  · rfl

theorem perform_muted (turn : Turn α) :
    (scheduler.muted.perform turn.muted).1 = (scheduler.perform turn).1.muted := by
  unfold perform
  rw [Turn.muted_advance?, muted_agenda, Agenda.passTime_muted]
  cases scheduler.agenda.passTime turn.advance? with
  | error fault => rfl
  | ok agenda =>
      dsimp only [Except.map]
      rw [show ({ scheduler.muted with agenda := agenda.muted } : Scheduler Unit) =
          muted { scheduler with agenda } from rfl, Turn.muted_cancel?, named?_muted,
        Turn.muted_submit?]
      generalize turn.cancel?.bind (Scheduler.named? { scheduler with agenda }) = cancelled?
      cases turn.submit? with
      | none =>
          cases cancelled? with
          | none => rfl
          | some task => exact cancelNow_muted ..
      | some submission =>
          obtain ⟨name, delay, script⟩ := submission
          -- The task is submitted to whatever the cancellation has left.
          have hsubmits : ∀ state : Scheduler α,
              state.muted.submitNow
                  { name, schedule := .oneShot, delay, script := Script.muted script } =
                (state.submitNow { name, schedule := .oneShot, delay, script }).map
                  fun submitted => (submitted.1.muted, submitted.2) :=
            fun state => submitNow_muted state { name, schedule := .oneShot, delay, script }
          cases cancelled? with
          | none =>
              dsimp only [Option.map_some]
              rw [hsubmits]
              cases submitNow { scheduler with agenda } _ with
              | error fault => rfl
              | ok submitted => exact submitted.1.note_submitted_muted name submitted.2
          | some task =>
              dsimp only [Option.map_some]
              rw [cancelNow_muted { scheduler with agenda } task, hsubmits]
              cases (cancelNow { scheduler with agenda } task).submitNow _ with
              | error fault => rfl
              | ok submitted => exact submitted.1.note_submitted_muted name submitted.2

theorem release_muted (worker : Nat) :
    scheduler.muted.release worker = (scheduler.release worker).muted := by
  have hjobs : (scheduler.jobs.map Job.muted).filter (fun job => job.worker != worker) =
      (scheduler.jobs.filter fun job => job.worker != worker).map Job.muted :=
    List.filter_map ..
  exact congrArg (fun jobs => ({ scheduler.muted with jobs } : Scheduler Unit)) hjobs

theorem goOnWith_muted (job : Job α) (stage : Stage α) :
    scheduler.muted.goOnWith job.muted stage.muted = (scheduler.goOnWith job stage).muted := by
  have hjobs : (scheduler.jobs.map Job.muted).map (fun other =>
        if other.worker = job.muted.worker then { job.muted with stage := stage.muted }
        else other) =
      (scheduler.jobs.map fun other =>
        if other.worker = job.worker then { job with stage } else other).map Job.muted := by
    rw [List.map_map, List.map_map]
    refine List.map_congr_left fun other _ => ?_
    simp only [Function.comp_apply, apply_ite Job.muted]
    rfl
  exact congrArg (fun jobs => ({ scheduler.muted with jobs } : Scheduler Unit)) hjobs

@[simp] theorem muted_muted : scheduler.muted.muted = scheduler.muted := by
  have hjobs : (scheduler.jobs.map Job.muted).map Job.muted = scheduler.jobs.map Job.muted := by
    rw [List.map_map]
    exact List.map_congr_left fun job _ => job.muted_muted
  have hlost : (scheduler.lost.map LostRun.muted).map LostRun.muted =
      scheduler.lost.map LostRun.muted := by
    rw [List.map_map]
    exact List.map_congr_left fun run _ => run.muted_muted
  simp only [muted, hjobs, hlost, Agenda.muted_muted]

theorem withAgenda_muted {agenda : Agenda α} {quiet : Agenda Unit}
    (hagenda : quiet.muted = agenda.muted) :
    muted { scheduler.muted with agenda := quiet } = muted { scheduler with agenda } := by
  have hrest := scheduler.muted_muted
  simp only [muted, Scheduler.mk.injEq] at hrest ⊢
  exact ⟨hagenda, hrest.2⟩

theorem withLost_muted (task : TaskId) (error? : Option TaskError) :
    muted { scheduler.muted with
        lost := .uncounted task none :: scheduler.muted.lost } =
      muted { scheduler with lost := .uncounted task error? :: scheduler.lost } := by
  have hrest := scheduler.muted_muted
  simp only [muted, Scheduler.mk.injEq] at hrest ⊢
  simp only [List.map_cons, LostRun.muted, hrest, and_self]

theorem muted_goOnWith {first : Scheduler Unit} {second : Scheduler α}
    (hsame : first.muted = second.muted) (job : Job α) {quiet : Stage Unit} {stage : Stage α}
    (hstage : quiet.muted = stage.muted) :
    (first.goOnWith job.muted quiet).muted = (second.goOnWith job stage).muted := by
  rw [← goOnWith_muted, ← goOnWith_muted, hsame, hstage, Job.muted_muted]

theorem muted_release {first : Scheduler Unit} {second : Scheduler α}
    (hsame : first.muted = second.muted) (worker : Nat) :
    (first.release worker).muted = (second.release worker).muted := by
  rw [← release_muted, ← release_muted, hsame]

/-- What a worker does to all but the endings does not depend on how runs end. -/
theorem work_muted (hpolicy : scheduler.agenda.policy = .keepGoing) (job : Job α) :
    (scheduler.muted.work job.muted).map muted = (scheduler.work job).map muted := by
  cases hstage : job.stage with
  | inside turn? =>
      have hmuted : job.muted.stage = .inside (turn?.map Turn.muted) := by
        rw [Job.muted, hstage]
        rfl
      cases turn? with
      | none =>
          simp only [work, hstage, hmuted, Option.map_none, Option.map_some]
          exact congrArg some (muted_goOnWith scheduler.muted_muted job rfl)
      | some turn =>
          simp only [work, hstage, hmuted, Option.map_some, passesGate_muted, perform_muted]
          split
          · rw [Option.map_some, Option.map_some]
            exact congrArg some (muted_goOnWith
              (withAgenda_muted (scheduler.perform turn).1 (Agenda.muted_leave ..)) job rfl)
          · rfl
  | left error? =>
      have hmuted : job.muted.stage = .left none := by rw [Job.muted, hstage]; rfl
      simp only [work, hstage, hmuted, muted_agenda, Agenda.muted_now]
      cases scheduler.agenda.now with
      | error fault =>
          exact congrArg some (muted_release (withLost_muted scheduler job.task error?) job.worker)
      | ok completedAt =>
          obtain ⟨hsettled, hagain⟩ := scheduler.agenda.settle_muted hpolicy job completedAt error?
          dsimp only
          -- Both go back to the queue, or neither does.
          generalize scheduler.agenda.muted.settle job.muted completedAt none = quiet
            at hsettled hagain ⊢
          generalize scheduler.agenda.settle job completedAt error? = settled at hsettled hagain ⊢
          obtain ⟨quiet, again⟩ := quiet
          obtain ⟨agenda, same⟩ := settled
          obtain rfl : again = same := hagain
          cases again with
          | true =>
              exact congrArg some (muted_goOnWith (withAgenda_muted scheduler hsettled) job rfl)
          | false =>
              exact congrArg some (muted_release (withAgenda_muted scheduler hsettled) job.worker)
  | rearmed =>
      have hmuted : job.muted.stage = .rearmed := by rw [Job.muted, hstage]; rfl
      simp only [work, hstage, hmuted, muted_agenda, Job.muted_task, Agenda.requeue_muted]
      generalize scheduler.agenda.requeue job.task = requeued
      obtain ⟨agenda, _ | _⟩ := requeued
      · exact congrArg some (muted_goOnWith
          (withAgenda_muted scheduler agenda.muted_muted) job rfl)
      · exact congrArg some (muted_release
          (withAgenda_muted scheduler agenda.muted_muted) job.worker)
  | refused =>
      have hmuted : job.muted.stage = .refused := by rw [Job.muted, hstage]; rfl
      simp only [work, hstage, hmuted, muted_agenda, Job.muted_task, Agenda.cancel_muted]
      exact congrArg some (muted_release
        (withAgenda_muted scheduler (Agenda.muted_muted _)) job.worker)

/-! ### All steps -/

theorem map_muted_muted (scheduler? : Option (Scheduler α)) :
    (scheduler?.map muted).map muted = scheduler?.map muted := by
  cases scheduler? <;> simp

/-- A scheduler whose failures do not stop anything goes the same way, however runs end. -/
theorem step_muted (hpolicy : scheduler.agenda.policy = .keepGoing) (action : Action α) :
    (scheduler.muted.step action.muted).map muted = (scheduler.step action).map muted := by
  cases action with
  | request asked =>
      show some (muted (scheduler.muted.request asked.muted)) =
        some (muted (scheduler.request asked))
      rw [request_muted, muted_muted]
  | proceed call =>
      simp only [step, Action.muted]
      rw [muted_calls]
      split
      · rw [proceed_muted, map_muted_muted]
      · rfl
  | advance move =>
      simp only [step, Action.muted]
      rw [muted_agenda, Agenda.muted_clock]
      split
      · rename_i clock hclock
        exact congrArg some (muted_muted
          { scheduler with
            agenda := { scheduler.agenda with clock }
            unannounced := scheduler.unannounced + 1 })
      · rfl
  | announce =>
      simp only [step, Action.muted]
      rw [muted_unannounced]
      split
      · rfl
      · exact congrArg some (muted_muted
          { scheduler with
            agenda := { scheduler.agenda with queue := scheduler.agenda.queue.wake }
            unannounced := scheduler.unannounced - 1 })
  | expire =>
      exact congrArg some (muted_muted
        { scheduler with
          agenda :=
            { scheduler.agenda with queue := scheduler.agenda.queue.expire dispatcherCaller } })
  | dispatch =>
      show scheduler.muted.dispatch.map muted = scheduler.dispatch.map muted
      rw [dispatch_muted, map_muted_muted]
  | takeUp position =>
      show (scheduler.muted.takeUp position).map muted = (scheduler.takeUp position).map muted
      rw [takeUp_muted, map_muted_muted]
  | work worker =>
      simp only [step, Action.muted]
      rw [find?_muted]
      cases scheduler.jobs.find? fun job => job.worker == worker with
      | none => rfl
      | some job => exact scheduler.work_muted hpolicy job
  | release gate =>
      show some (muted (muted { scheduler with openGates := gate :: scheduler.openGates })) = _
      rw [muted_muted]
      rfl
  | observe observer =>
      exact congrArg some (withAgenda_muted scheduler (Agenda.muted_muted scheduler.agenda))

theorem observe_muted {after : Scheduler α} {observer : Observer}
    (hstep : scheduler.step (.observe observer) = some after) : after.muted = scheduler.muted := by
  obtain rfl := Option.some.inj hstep
  rfl

/-- Two schedulers that have gone the same way so far make the same step in the same way. -/
theorem muted_step_eq {first : Scheduler α} {second : Scheduler α}
    (hpolicy : first.agenda.policy = .keepGoing) (hsame : first.muted = second.muted)
    {action other : Action α} (haction : action.muted = other.muted) :
    (first.step action).map muted = (second.step other).map muted := by
  have hother : second.agenda.policy = .keepGoing := by
    rw [← hpolicy]
    exact (congrArg (fun state => state.agenda.policy) hsame).symm
  rw [← first.step_muted hpolicy, ← second.step_muted hother, hsame, haction]

end Scheduler

end TimedTasks
