import TimedTasks.Proofs.Queue.Traffic
import TimedTasks.Proofs.Scheduler.Cadence
import TimedTasks.Proofs.Scheduler.Callers

/-!
# Steps of a call that schedules a task

A call that schedules a task looks at its arguments first (`Looks`), then at the queue, and if
it falls asleep there, at the queue again as often as it is woken (`Enlists`).  Each of these
steps either lets the task in (`Admits`) or leaves no trace (`Traceless`): what remains of a call
that is refused is a record that nobody ever looks at.

`Fits` says what such a call is told, in terms of the two states that it has looked at.  For the
body of a task, which schedules another one in a single go, the two are the same
(`inOneGo_submitNow`).
-/

namespace TimedTasks

namespace Queue

/-- Why a queue turns a task away as soon as it is brought. -/
inductive TurnsAway (queue : Queue) (patient : Bool) : SchedulerError → Prop
  | closed (hadmission : queue.admission ≠ .accepting) : TurnsAway queue patient .closed
  | rejected {capacity : Nat} (hadmission : queue.admission = .accepting)
      (hpatient : patient = false) (hcapacity : queue.capacity? = some capacity)
      (hfull : capacity ≤ queue.size) : TurnsAway queue patient (.rejected capacity)

theorem turnsAway_of_tryInsert {queue : Queue} {task : TaskId} {periodic : Bool} {due : Moment}
    {error : SchedulerError} (herror : queue.tryInsert task periodic due = .error error) :
    queue.TurnsAway false error := by
  unfold tryInsert at herror
  split at herror
  · rename_i hadmission
    obtain rfl := Except.error.inj herror
    exact .closed hadmission
  · rename_i hnot
    have hadmission : queue.admission = .accepting := Decidable.not_not.mp hnot
    split at herror
    · rename_i capacity hcapacity
      split at herror
      · rename_i hfull
        obtain rfl := Except.error.inj herror
        exact .rejected hadmission rfl hcapacity hfull
      · simp at herror
    · simp at herror

end Queue

theorem Agenda.turnsAway_of_tryInsert {α : Type} {agenda : Agenda α} {task : TaskId}
    {error : SchedulerError} (herror : agenda.tryInsert task = .error error) :
    agenda.queue.TurnsAway false error := by
  unfold tryInsert at herror
  split at herror
  · simp at herror
  · rename_i found hfound
    obtain rfl := Except.error.inj herror
    exact Queue.turnsAway_of_tryInsert hfound

namespace Schedule

/-- Runs in a row would be due at the same moment. -/
def HasZeroPeriod (schedule : Schedule) : Prop :=
  ∃ period, schedule.period? = some period ∧ period.nanos = 0

theorem any_isZero_iff (schedule : Schedule) :
    schedule.period?.any Span.isZero = true ↔ schedule.HasZeroPeriod := by
  cases schedule <;> simp [HasZeroPeriod, period?, Span.isZero]

/-- Two runs in a row are out of reach exactly if a period after the first one is. -/
theorem nextRun_eq_error_iff (schedule : Schedule) (due : Moment) :
    (∃ error, schedule.nextRun due due = .error error) ↔
      ∃ period, schedule.period? = some period ∧ Moment.horizon ≤ due.nanos + period.nanos := by
  have hafter : ∀ period, (∃ error, Schedule.after due period = .error error) ↔
      Moment.horizon ≤ due.nanos + period.nanos := by
    intro period
    rw [← Moment.add?_eq_none_iff, after]
    cases due.add? period <;> simp
  cases schedule with
  | oneShot => simp [nextRun, period?]
  | fixedRate period | fixedDelay period => simp [nextRun, period?, hafter]

end Schedule

/-- How much a call counts among the producers that wait. -/
def Call.blocks : Call → Nat
  | .parked _ => 1
  | _ => 0

namespace Scheduler

variable {α : Type} {before after asked met scheduler : Scheduler α} {action : Action α}
variable {config : Config} {cores : Nat} {submission : Submission α} {patient : Bool}
variable {call : CallId} {task : TaskId} {due : Moment} {stage : Call}

/-! ## The arguments of a call -/

/-- The arguments of a call are no good: the period is zero, or the scheduler runs, the clock can
be read, and one of the due times that have to be known cannot be represented. -/
def Invalid (scheduler : Scheduler α) (submission : Submission α) : Prop :=
  submission.schedule.HasZeroPeriod ∨
    scheduler.lifecycle = .running ∧ scheduler.agenda.clock.isReadable = true ∧
      (Moment.horizon ≤ scheduler.agenda.reading.nanos + submission.delay.nanos ∨
        ∃ period, submission.schedule.period? = some period ∧
          Moment.horizon ≤
            scheduler.agenda.reading.nanos + submission.delay.nanos + period.nanos)

/-- Looking at the arguments of a call takes a clock that cannot be read. -/
def Panics (scheduler : Scheduler α) (submission : Submission α) : Prop :=
  ¬ submission.schedule.HasZeroPeriod ∧ scheduler.lifecycle = .running ∧
    scheduler.agenda.clock.isReadable = false

/-- There is nothing to be said against the arguments of a call, as far as they are looked at. -/
def Valid (scheduler : Scheduler α) (submission : Submission α) : Prop :=
  ¬ scheduler.Invalid submission ∧ ¬ scheduler.Panics submission

theorem Invalid.not_panics (hinvalid : scheduler.Invalid submission) :
    ¬ scheduler.Panics submission := by
  rintro ⟨hperiod, hrunning, hunreadable⟩
  rcases hinvalid with hzero | ⟨-, hreadable, -⟩
  · exact hperiod hzero
  · exact Bool.false_ne_true (hunreadable.symm.trans hreadable)

/-- What comes of looking at the arguments. -/
inductive Looks (scheduler : Scheduler α) (submission : Submission α) :
    Except ClockFault (Except SchedulerError Moment) → Prop
  | panics (fault : ClockFault) (hpanics : scheduler.Panics submission) :
      Looks scheduler submission (.error fault)
  | invalid (fault : ArgumentFault) (hinvalid : scheduler.Invalid submission) :
      Looks scheduler submission (.ok (.error (.invalidArgument fault)))
  | closed (hvalid : scheduler.Valid submission) (hlifecycle : scheduler.lifecycle ≠ .running) :
      Looks scheduler submission (.ok (.error .closed))
  | due {due : Moment} (hvalid : scheduler.Valid submission)
      (hrunning : scheduler.lifecycle = .running)
      (hdue : due.nanos = scheduler.agenda.reading.nanos + submission.delay.nanos) :
      Looks scheduler submission (.ok (.ok due))

theorem looks_firstDue (scheduler : Scheduler α) (submission : Submission α) :
    Looks scheduler submission (scheduler.firstDue submission) := by
  have hzero := submission.schedule.any_isZero_iff
  unfold firstDue
  dsimp only
  split
  · rename_i hperiod
    exact .invalid _ (Or.inl (hzero.mp hperiod))
  · rename_i hperiod
    rw [hzero] at hperiod
    -- The period is looked at first, then the lifecycle, and only then the clock.
    cases hlifecycle : scheduler.lifecycle with
    | shuttingDown | stopped =>
        have hnot : scheduler.lifecycle ≠ .running := by simp [hlifecycle]
        refine .closed ⟨?_, fun hpanics => hnot hpanics.2.1⟩ hnot
        rintro (hnone | ⟨hrunning, -⟩)
        · exact hperiod hnone
        · exact hnot hrunning
    | running =>
        simp only [Lifecycle.ensureRunning]
        cases hreadable : scheduler.agenda.clock.isReadable with
        | false =>
            simp only [Agenda.now_of_unreadable hreadable]
            exact .panics _ ⟨hperiod, hlifecycle, hreadable⟩
        | true =>
            have hcalm : ¬ scheduler.Panics submission := fun hpanics =>
              Bool.false_ne_true (hpanics.2.2.symm.trans hreadable)
            simp only [Agenda.now_of_readable hreadable]
            cases hadd : scheduler.agenda.reading.add? submission.delay with
            | none =>
                have hout := Moment.add?_eq_none_iff.mp hadd
                exact .invalid _ (Or.inr ⟨hlifecycle, hreadable, Or.inl hout⟩)
            | some due =>
                obtain ⟨hdue, hhorizon⟩ := Moment.add?_eq_some_iff.mp hadd
                have hsecond := submission.schedule.nextRun_eq_error_iff due
                rw [hdue] at hsecond
                cases hnext : submission.schedule.nextRun due due with
                | error error =>
                    have hout := hsecond.mp ⟨error, hnext⟩
                    simp only [hnext]
                    exact .invalid _ (Or.inr ⟨hlifecycle, hreadable, Or.inr hout⟩)
                | ok second? =>
                    simp only [hnext]
                    refine .due ⟨?_, hcalm⟩ hlifecycle hdue
                    rintro (hnone | ⟨-, -, hfirst | hout⟩)
                    · exact hperiod hnone
                    · omega
                    · obtain ⟨error, herror⟩ := hsecond.mpr hout
                      exact absurd (hnext.symm.trans herror) (by simp)

/-! ## What a step leaves behind -/

/-- Nothing is left behind that anyone will ever look at. -/
structure Traceless (before after : Scheduler α) : Prop where
  entries_eq : after.agenda.queue.entries = before.agenda.queue.entries
  index_eq : after.agenda.queue.index = before.agenda.queue.index
  nextSeq_eq : after.agenda.queue.nextSeq = before.agenda.queue.nextSeq
  metrics_eq : after.agenda.metrics = before.agenda.metrics
  accepted_eq : after.accepted = before.accepted
  record_eq : ∀ task record, before.record? task = some record → after.record? task = some record

/-- A task is let in: it gets one entry, and it counts as scheduled. -/
structure Admits (before after : Scheduler α) (task : TaskId) (due : Moment) : Prop where
  takesIn : Queue.TakesIn before.agenda.queue after.agenda.queue
    (before.agenda.queue.newEntry task (after.agenda.periodicOf task) due)
  lookup_eq : after.agenda.queue.index.lookup task = some ⟨due, before.agenda.queue.nextSeq⟩
  metrics_eq : after.agenda.metrics =
    { before.agenda.metrics with scheduled := before.agenda.metrics.scheduled + 1 }
  accepted_eq : after.accepted = task :: before.accepted
  record_eq : ∀ task record, before.record? task = some record → after.record? task = some record

/-- Whoever only has another record or other calls has left nothing behind. -/
theorem Traceless.of_queue (hqueue : after.agenda.queue = before.agenda.queue)
    (hmetrics : after.agenda.metrics = before.agenda.metrics)
    (haccepted : after.accepted = before.accepted)
    (hrecord : ∀ task record, before.record? task = some record →
      after.record? task = some record) : Traceless before after :=
  ⟨by rw [hqueue], by rw [hqueue], by rw [hqueue], hmetrics, haccepted, hrecord⟩

theorem record?_draft_of_some {record : Record α} (hrecord : before.record? task = some record)
    (submission : Submission α) (due : Moment) :
    (before.draft submission due).1.record? task = some record := by
  rw [record?_draft, if_neg, hrecord]
  rintro rfl
  exact absurd (before.record?_size.symm.trans hrecord) (by simp)

theorem admits_push {queue : Queue} {periodic : Bool}
    (hqueue : after.agenda.queue = queue.push task periodic due)
    (hentries : queue.entries = before.agenda.queue.entries)
    (hnextSeq : queue.nextSeq = before.agenda.queue.nextSeq)
    (hperiodic : periodic = after.agenda.periodicOf task)
    (hmetrics : after.agenda.metrics =
      { before.agenda.metrics with scheduled := before.agenda.metrics.scheduled + 1 })
    (haccepted : after.accepted = task :: before.accepted)
    (hrecord : ∀ task record, before.record? task = some record →
      after.record? task = some record) : Admits before after task due where
  takesIn := by
    have hpush := queue.takesIn_push task periodic due
    have hentry : queue.newEntry task periodic due =
        before.agenda.queue.newEntry task (after.agenda.periodicOf task) due := by
      rw [Queue.newEntry, Queue.newEntry, hnextSeq, hperiodic]
    rw [hqueue, ← hentry]
    exact ⟨hpush.seq_eq.trans hnextSeq, hentries ▸ hpush.entries_perm,
      hpush.nextSeq_eq.trans (congrArg (· + 1) hnextSeq)⟩
  lookup_eq := by
    rw [hqueue, ← hnextSeq, Queue.push, List.lookup_cons, beq_self_eq_true]
  metrics_eq := hmetrics
  accepted_eq := haccepted
  record_eq := hrecord

/-! ## The later steps of a call -/

/-- What a call that brings a task can come to when it goes on. -/
inductive Enlists (before : Scheduler α) (call : CallId) : Call → Scheduler α → Prop
  | turnedAway {task : TaskId} {patient : Bool} {error : SchedulerError}
      (hreason : before.agenda.queue.TurnsAway patient error) :
      Enlists before call (.inserting task patient) (before.reply call (.scheduled (.error error)))
  | admitted {task : TaskId} {patient : Bool}
      (hadmission : before.agenda.queue.admission = .accepting)
      (hroom : before.agenda.queue.isFull = false) :
      Enlists before call (.inserting task patient)
        (((before.withQueue (before.pushed task)).accept task).reply call (.scheduled (.ok task)))
  | parks {task : TaskId} (hadmission : before.agenda.queue.admission = .accepting)
      (hfull : before.agenda.queue.isFull = true) :
      Enlists before call (.inserting task true)
        ((before.withQueue
          { before.agenda.queue with
            blockedProducers := before.agenda.queue.blockedProducers + 1
            producers := before.agenda.queue.producers.park
              ⟨call, task, before.agenda.periodicOf task⟩ }).goOn call (.parked task))
  | parksAgain {task : TaskId} {producer : Producer} :
      Enlists before call (.parked task)
        ((before.withQueue
          { before.agenda.queue.risen producer with
            producers := (before.agenda.queue.risen producer).producers.park producer }).goOn
          call (.parked task))
  | givesUp {task : TaskId} {producer : Producer}
      (hwoken : producer ∈ before.agenda.queue.producers.woken)
      (hadmission : before.agenda.queue.admission = .closed) :
      Enlists before call (.parked task)
        ((before.withQueue
          { before.agenda.queue.risen producer with
            blockedProducers := before.agenda.queue.blockedProducers - 1
            takers := before.agenda.queue.takers.wakeOne }).reply
          call (.scheduled (.error .closed)))
  | getsIn {task : TaskId} {producer : Producer} (hcaller : producer.caller = call)
      (hwoken : producer ∈ before.agenda.queue.producers.woken) :
      Enlists before call (.parked task)
        (((before.withQueue
          ({ before.agenda.queue.risen producer with
              blockedProducers := before.agenda.queue.blockedProducers - 1 }.push
            producer.task producer.periodic (before.agenda.dueOf producer.task))).accept task).reply
          call (.scheduled (.ok task)))

theorem enlists_inserting (hlookup : before.calls.lookup call = some (.inserting task patient))
    (hstep : before.step (.proceed call) = some after) :
    before.Enlists call (.inserting task patient) after := by
  simp only [step, hlookup] at hstep
  cases patient with
  | true =>
      simp only [proceed] at hstep
      by_cases hadmission : before.agenda.queue.admission = .accepting
      · cases hfull : before.agenda.queue.isFull with
        | true =>
            rw [Agenda.insert_eq (Queue.insert_of_full hadmission hfull _ _)] at hstep
            obtain rfl := Option.some.inj hstep
            exact .parks hadmission hfull
        | false =>
            rw [Agenda.insert_eq (Queue.insert_of_room hadmission hfull _ _)] at hstep
            obtain rfl := Option.some.inj hstep
            exact .admitted hadmission hfull
      · rw [Agenda.insert_eq (Queue.insert_of_not_accepting hadmission _ _)] at hstep
        obtain rfl := Option.some.inj hstep
        exact .turnedAway (.closed hadmission)
  | false =>
      simp only [proceed] at hstep
      split at hstep
      · rename_i agenda hok
        obtain ⟨hadmission, hroom, rfl⟩ := Agenda.tryInsert_eq_ok hok
        obtain rfl := Option.some.inj hstep
        exact .admitted hadmission hroom
      · rename_i error herror
        obtain rfl := Option.some.inj hstep
        exact .turnedAway (Agenda.turnsAway_of_tryInsert herror)

theorem enlists_parked (hlookup : before.calls.lookup call = some (.parked task))
    (hstep : before.step (.proceed call) = some after) :
    before.Enlists call (.parked task) after := by
  simp only [step, hlookup, proceed] at hstep
  split at hstep
  · simp at hstep
  · rename_i producer hfind
    have hwoken := List.mem_of_find?_eq_some hfind
    have hcaller : producer.caller = call := by simpa using List.find?_some hfind
    by_cases hadmission : before.agenda.queue.admission = .closed
    · rw [Agenda.resume_eq (Queue.resume_of_closed hadmission _ _)] at hstep
      obtain rfl := Option.some.inj hstep
      exact .givesUp hwoken hadmission
    · cases hfull : before.agenda.queue.isFull with
      | true =>
          rw [Agenda.resume_eq (Queue.resume_of_full hfull hadmission _ _)] at hstep
          obtain rfl := Option.some.inj hstep
          exact .parksAgain
      | false =>
          rw [Agenda.resume_eq (Queue.resume_of_room hfull hadmission _ _)] at hstep
          obtain rfl := Option.some.inj hstep
          exact .getsIn hcaller hwoken

/-- A call that has come to the queue can go on. -/
theorem exists_step_of_inserting
    (hlookup : before.calls.lookup call = some (.inserting task patient)) :
    ∃ after, before.step (.proceed call) = some after := by
  simp only [step, hlookup]
  cases patient with
  | true => exact ⟨_, rfl⟩
  | false =>
      simp only [proceed]
      split
      · exact ⟨_, rfl⟩
      · exact ⟨_, rfl⟩

/-! ## What a call is told -/

/-- What a call that is not parked is told, if it is made when the scheduler is `asked` and comes
to the queue when it is `met`. -/
structure Fits {β : Type} (asked met : Scheduler α) (submission : Submission α) (patient : Bool)
    (result : Except ClockFault (Except SchedulerError β)) : Prop where
  panics_iff : (∃ fault, result = .error fault) ↔ asked.Panics submission
  invalid_iff : (∃ fault, result = .ok (.error (.invalidArgument fault))) ↔
    asked.Invalid submission
  closed_iff : result = .ok (.error .closed) ↔ asked.Valid submission ∧
    (asked.lifecycle ≠ .running ∨ met.agenda.queue.admission ≠ .accepting)
  rejected_iff : ∀ capacity, result = .ok (.error (.rejected capacity)) ↔
    asked.Valid submission ∧ asked.lifecycle = .running ∧
      met.agenda.queue.admission = .accepting ∧ patient = false ∧
        met.agenda.queue.capacity? = some capacity ∧ capacity ≤ met.agenda.queue.size
  accepted_iff : (∃ value, result = .ok (.ok value)) ↔
    asked.Valid submission ∧ asked.lifecycle = .running ∧
      met.agenda.queue.admission = .accepting ∧ met.agenda.queue.isFull = false

namespace Fits

variable {β : Type}

theorem of_panics (hpanics : asked.Panics submission) (fault : ClockFault) :
    Fits (β := β) asked met submission patient (.error fault) := by
  have hvalid : ¬ asked.Invalid submission := fun hinvalid => hinvalid.not_panics hpanics
  exact ⟨by simp [hpanics], by simp [hvalid], by simp [Valid, hpanics], by simp [Valid, hpanics],
    by simp [Valid, hpanics]⟩

theorem of_invalid (hinvalid : asked.Invalid submission) (fault : ArgumentFault) :
    Fits (β := β) asked met submission patient (.ok (.error (.invalidArgument fault))) where
  panics_iff := by simp [hinvalid.not_panics]
  invalid_iff := by simp [hinvalid]
  closed_iff := by simp [Valid, hinvalid]
  rejected_iff := by simp [Valid, hinvalid]
  accepted_iff := by simp [Valid, hinvalid]

theorem of_not_running (hvalid : asked.Valid submission)
    (hlifecycle : asked.lifecycle ≠ .running) :
    Fits (β := β) asked met submission patient (.ok (.error .closed)) where
  panics_iff := by simp [hvalid.2]
  invalid_iff := by simp [hvalid.1]
  closed_iff := by simp [hvalid, hlifecycle]
  rejected_iff := by simp [hlifecycle]
  accepted_iff := by simp [hlifecycle]

theorem of_turnsAway (hvalid : asked.Valid submission) (hrunning : asked.lifecycle = .running)
    {error : SchedulerError} (hreason : met.agenda.queue.TurnsAway patient error) :
    Fits (β := β) asked met submission patient (.ok (.error error)) := by
  cases hreason with
  | closed hadmission =>
      exact ⟨by simp [hvalid.2], by simp [hvalid.1], by simp [hvalid, hadmission],
        by simp [hadmission], by simp [hadmission]⟩
  | @rejected capacity hadmission hpatient hcapacity hfull =>
      have hisFull : met.agenda.queue.isFull = true :=
        (Queue.isFull_iff hcapacity).mpr hfull
      refine ⟨by simp [hvalid.2], by simp [hvalid.1], by simp [hrunning, hadmission],
        fun bound => ?_, by simp [hisFull]⟩
      simp only [Except.ok.injEq, Except.error.injEq, SchedulerError.rejected.injEq, hcapacity,
        Option.some.injEq]
      constructor
      · rintro rfl
        exact ⟨hvalid, hrunning, hadmission, hpatient, rfl, hfull⟩
      · exact fun hall => hall.2.2.2.2.1

theorem of_room (hvalid : asked.Valid submission) (hrunning : asked.lifecycle = .running)
    (hadmission : met.agenda.queue.admission = .accepting)
    (hroom : met.agenda.queue.isFull = false) (value : β) :
    Fits asked met submission patient (.ok (.ok value)) := by
  refine ⟨by simp [hvalid.2], by simp [hvalid.1], by simp [hrunning, hadmission],
    fun bound => ?_, by simp [hvalid, hrunning, hadmission, hroom]⟩
  refine iff_of_false (by simp) ?_
  rintro ⟨-, -, -, -, hcapacity, hfull⟩
  exact absurd ((Queue.isFull_iff hcapacity).mpr hfull) (by simp [hroom])

end Fits

/-! ## Scheduling in one go -/

/-- A task is scheduled in one go: unless the clock cannot be read, the caller is told what has
become of it, and either the task is let in, or nothing has happened. -/
structure InOneGo (before : Scheduler α) (submission : Submission α)
    (outcome : Except ClockFault (Scheduler α × Except SchedulerError Unit)) : Prop where
  fits : Fits before before submission false (outcome.map Prod.snd)
  blocked_eq : ∀ after result, outcome = .ok (after, result) →
    after.agenda.queue.blockedProducers = before.agenda.queue.blockedProducers
  refused : ∀ after error, outcome = .ok (after, .error error) → Traceless before after
  accepted : ∀ after, outcome = .ok (after, .ok ()) →
    ∃ due, due.nanos = before.agenda.reading.nanos + submission.delay.nanos ∧
      Admits before after before.agenda.records.size due

theorem InOneGo.of_fault (hpanics : before.Panics submission) (fault : ClockFault) :
    InOneGo before submission (.error fault) :=
  ⟨.of_panics hpanics fault, by simp, by simp, by simp⟩

/-- A task that is refused in one go leaves no trace. -/
theorem InOneGo.of_refused {error : SchedulerError}
    (hfits : Fits (β := Unit) before before submission false (.ok (.error error)))
    (hblocked : after.agenda.queue.blockedProducers = before.agenda.queue.blockedProducers)
    (htraceless : Traceless before after) :
    InOneGo before submission (.ok (after, .error error)) := by
  refine ⟨hfits, ?_, ?_, by simp⟩
  · intro other result hresult
    obtain ⟨rfl, -⟩ := Prod.mk.inj (Except.ok.inj hresult)
    exact hblocked
  · intro other refusal hresult
    obtain ⟨rfl, -⟩ := Prod.mk.inj (Except.ok.inj hresult)
    exact htraceless

theorem InOneGo.of_accepted {due : Moment}
    (hfits : Fits before before submission false (.ok (.ok ())))
    (hblocked : after.agenda.queue.blockedProducers = before.agenda.queue.blockedProducers)
    (hdue : due.nanos = before.agenda.reading.nanos + submission.delay.nanos)
    (hadmits : Admits before after before.agenda.records.size due) :
    InOneGo before submission (.ok (after, .ok ())) := by
  refine ⟨hfits, ?_, by simp, ?_⟩
  · intro other result hresult
    obtain ⟨rfl, -⟩ := Prod.mk.inj (Except.ok.inj hresult)
    exact hblocked
  · intro other hresult
    obtain ⟨rfl, -⟩ := Prod.mk.inj (Except.ok.inj hresult)
    exact ⟨due, hdue, hadmits⟩

theorem inOneGo_submitNow (scheduler : Scheduler α) (submission : Submission α) :
    InOneGo scheduler submission (scheduler.submitNow submission) := by
  have hlooks := scheduler.looks_firstDue submission
  unfold submitNow
  match hfirst : scheduler.firstDue submission with
  | .error fault =>
      rw [hfirst] at hlooks
      cases hlooks with
      | panics _ hpanics => exact .of_fault hpanics fault
  | .ok (.error error) =>
      rw [hfirst] at hlooks
      refine .of_refused ?_ rfl (.of_queue rfl rfl rfl fun _ _ => id)
      cases hlooks with
      | invalid fault hinvalid => exact .of_invalid hinvalid fault
      | closed hvalid hlifecycle => exact .of_not_running hvalid hlifecycle
  | .ok (.ok due) =>
      rw [hfirst] at hlooks
      cases hlooks with
      | due hvalid hrunning hdue =>
        have hkept : ∀ task record, scheduler.record? task = some record →
            (scheduler.draft submission due).1.record? task = some record :=
          fun task record hrecord => record?_draft_of_some hrecord submission due
        dsimp only
        split
        · rename_i error herror
          have hreason := Agenda.turnsAway_of_tryInsert herror
          exact .of_refused (.of_turnsAway hvalid hrunning hreason) rfl
            (.of_queue rfl rfl rfl hkept)
        · rename_i agenda hok
          obtain ⟨hadmission, hroom, rfl⟩ := Agenda.tryInsert_eq_ok hok
          have haccepting : scheduler.agenda.queue.admission = .accepting := hadmission
          have hplace : scheduler.agenda.queue.isFull = false := hroom
          have hrecord : (scheduler.draft submission due).1.record? scheduler.agenda.records.size =
              some (submission.record due) := (record?_draft ..).trans (if_pos rfl)
          refine .of_accepted (.of_room hvalid hrunning haccepting hplace ()) rfl hdue ?_
          refine admits_push (congrArg (Queue.push _ _ _) ?_) rfl rfl rfl rfl rfl hkept
          exact dueOf_eq_nextRunAt hrecord

end Scheduler

end TimedTasks
