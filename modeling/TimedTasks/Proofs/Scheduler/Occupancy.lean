import TimedTasks.Proofs.Scheduler.CatchUp

/-!
# How many workers are busy

A snapshot says how many runs are in flight, next to the number of workers.  The two do not
measure the same thing.  A run is in flight from the moment it is handed over, and the
dispatcher hands over every task that is due without asking whether a worker is free.

What stays within the pool is the number of jobs.  Jobs have different workers (`Staffed`), all
of them from the pool (`Manned`), so the free workers and the jobs together are the pool.  The
rest of the runs in flight is the backlog, and there is no bound on that: another task can be
handed over while not a single worker moves (`Reachable.exists_active`).
-/

namespace TimedTasks

namespace Scheduler

variable {α : Type} {origin before after scheduler : Scheduler α} {action : Action α}
variable {config : Config} {cores : Nat} {task : TaskId}

/-! ## The pool -/

/-- Every job has one of the workers of the pool. -/
def Manned (scheduler : Scheduler α) : Prop :=
  ∀ job ∈ scheduler.jobs, job.worker < scheduler.workers

theorem Manned.of_goOnWith (hmanned : before.Manned) {job : Job α} (hjob : job ∈ before.jobs)
    (stage : Stage α) : (before.goOnWith job stage).Manned := by
  intro item hitem
  rcases mem_jobs_goOnWith hitem with hitem | rfl
  · exact hmanned item hitem
  · exact hmanned job hjob

theorem Manned.of_release (hmanned : before.Manned) (worker : Nat) :
    (before.release worker).Manned :=
  fun job hjob => hmanned job (List.mem_of_mem_filter hjob)

theorem Move.manned (hmove : Move origin action before after) (hmanned : before.Manned) :
    after.Manned := by
  cases hmove with
  | @tookUp position task worker _ hworker =>
      intro job hjob
      rcases List.mem_append.mp hjob with hjob | hjob
      · exact hmanned job hjob
      · obtain ⟨turn?, henter⟩ := before.agenda.enter_snd task worker before.agenda.reading
        rw [List.mem_singleton.mp hjob, henter]
        exact List.mem_range.mp (List.mem_of_mem_filter (List.mem_of_getElem? hworker))
  | skipped hjob | requeueRefused hjob => exact hmanned.of_goOnWith hjob _
  | ended _ hjob | rearmed hjob => exact Manned.of_goOnWith hmanned hjob _
  | settled | requeued | dropped | lostUncounted => exact Manned.of_release hmanned _
  | letGo => exact hmanned.of_release _
  | _ => exact hmanned

theorem Reachable.manned (hreachable : Reachable config cores scheduler) : scheduler.Manned := by
  refine hreachable.induction_on_moves (p := Manned) (fun first hcreated => ?_)
    fun _ _ _ _ _ hmanned hmove => hmove.manned hmanned
  obtain rfl := new_eq_ok hcreated
  exact fun job hjob => absurd hjob List.not_mem_nil

/-- A worker is free or has one job. -/
theorem Staffed.length_jobs_add_freeWorkers (hstaffed : scheduler.Staffed)
    (hmanned : scheduler.Manned) :
    scheduler.jobs.length + scheduler.freeWorkers.length = scheduler.workers := by
  have hsplit := List.filter_append_perm
    (fun worker => scheduler.jobs.any fun job => job.worker == worker)
    (List.range scheduler.workers)
  have hbusy : ((List.range scheduler.workers).filter fun worker =>
      scheduler.jobs.any fun job => job.worker == worker).Perm
      (scheduler.jobs.map Job.worker) := by
    refine (List.perm_ext_iff_of_nodup (List.nodup_range.filter _) hstaffed).mpr fun worker => ?_
    simp only [List.mem_filter, List.mem_range, List.any_eq_true, beq_iff_eq, List.mem_map]
    constructor
    · exact fun hworker => hworker.2
    · rintro ⟨job, hjob, rfl⟩
      exact ⟨hmanned job hjob, job, hjob, rfl⟩
  have hlength := hsplit.length_eq
  rw [List.length_append, hbusy.length_eq, List.length_map, List.length_range] at hlength
  exact hlength

/-- Nobody is free while a run waits, once everything has settled. -/
theorem freeWorkers_of_settled (hsettled : scheduler.isSettled = true)
    (hwaiting : scheduler.backlog ≠ []) : scheduler.freeWorkers = [] := by
  obtain ⟨waiting, rest, hbacklog⟩ := List.exists_cons_of_ne_nil hwaiting
  have hnone : scheduler.takeUp 0 = none :=
    step_eq_none_of_settled hsettled (by simp [candidates] : .takeUp 0 ∈ scheduler.candidates)
  cases hfree : scheduler.freeWorkers with
  | nil => rfl
  | cons worker others =>
      obtain ⟨after, htakeUp⟩ := exists_takeUp (hbacklog ▸ List.getElem?_cons_zero)
        (hfree ▸ List.getElem?_cons_zero)
      exact absurd (hnone.symm.trans htakeUp) (by simp)

/-! ## Handing over one more task -/

/-- A call that schedules a task that may be scheduled is ready to bring it to the queue. -/
theorem step_schedule {submission : Submission α} {due : Moment}
    (hdue : scheduler.firstDue submission = .ok (.ok due)) (patient : Bool) :
    scheduler.step (.request (.schedule submission patient)) =
      some ((scheduler.numbered.draft submission due).1.opened scheduler.nextCall
        (.inserting scheduler.agenda.records.size patient)) :=
  congrArg some (request_of_due hdue patient)

/-- A task is let in if the queue accepts tasks and has room. -/
theorem step_inserting {call : CallId}
    (hcall : scheduler.calls.lookup call = some (.inserting task true))
    (hadmission : scheduler.agenda.queue.admission = .accepting)
    (hroom : scheduler.agenda.queue.isFull = false) :
    scheduler.step (.proceed call) =
      some (((scheduler.withQueue (scheduler.pushed task)).accept task).reply call
        (.scheduled (.ok task))) := by
  have hinsert := Agenda.insert_eq (Queue.insert_of_room hadmission hroom
    ⟨call, task, scheduler.agenda.periodicOf task⟩ (scheduler.agenda.dueOf task))
  simp only [step, hcall, proceed, hinsert]
  rfl

/-- The scheduler whose dispatcher has taken the first entry. -/
def holding (scheduler : Scheduler α) (first : Entry) (rest : List Entry) : Scheduler α :=
  { scheduler.withQueue
      { scheduler.agenda.queue.alert dispatcherCaller with
        entries := rest
        index := dropIndex scheduler.agenda.queue.index first.task
        producers := scheduler.agenda.queue.producers.wakeOne } with
    dispatcher := .holding first.task }

/-- A dispatcher that is awake takes the first entry, if it is due. -/
theorem step_took {first : Entry} {rest : List Entry} (hseeking : scheduler.dispatcher = .seeking)
    (hawake : scheduler.agenda.queue.isAsleep dispatcherCaller = false)
    (hadmission : scheduler.agenda.queue.admission ≠ .closed)
    (hentries : scheduler.agenda.queue.entries = first :: rest)
    (hreadable : scheduler.agenda.clock.isReadable = true)
    (hdue : first.key.due ≤ scheduler.agenda.reading) :
    scheduler.step .dispatch = some (scheduler.holding first rest) := by
  have htake := Agenda.take_eq (fun _ => hreadable)
    (Queue.take_of_due hentries hadmission dispatcherCaller hdue)
  simp only [step, dispatch, hseeking, hawake, look, htake]
  rfl

/-- What the dispatcher holds is handed over, if it is pending. -/
theorem step_started {record : Record α} (hholding : scheduler.dispatcher = .holding task)
    (hrecord : scheduler.record? task = some record) (hpending : record.state = .pending) :
    ∃ after, scheduler.step .dispatch = some after ∧ after.dispatcher = .seeking ∧
      after.backlog = scheduler.backlog ++ [task] ∧ after.jobs = scheduler.jobs ∧
      after.calls = scheduler.calls ∧ after.lifecycle = scheduler.lifecycle ∧
      after.agenda.clock = scheduler.agenda.clock ∧
      after.agenda.queue = scheduler.agenda.queue := by
  have hmove : scheduler.agenda.records[task]?.bind Record.start? =
      some { record with state := .running } :=
    Option.bind_eq_some_iff.mpr ⟨record, hrecord, Record.start?_eq_some.mpr ⟨hpending, rfl⟩⟩
  simp only [step, dispatch, hholding, Agenda.start, Agenda.attempt, hmove]
  exact ⟨_, rfl, rfl, rfl, rfl, rfl, rfl, rfl, rfl⟩

/-- Only the dispatcher has anything to do, it is awake, and the clock has not been moved. -/
structure Quiet (scheduler : Scheduler α) : Prop where
  running : scheduler.lifecycle = .running
  clock_eq : scheduler.agenda.clock = .new
  calls_eq : scheduler.calls = []
  jobs_eq : scheduler.jobs = []
  accepting : scheduler.agenda.queue.admission = .accepting
  seeking : scheduler.dispatcher = .seeking
  asleep_eq : scheduler.agenda.queue.takers.asleep = []

/-- A task that is due at once. -/
def urgentTask : Submission α :=
  { name := "", schedule := .oneShot, delay := Span.zero
    script := fun _ => { ending := .error "" } }

/-- The scheduler that has been asked for the task. -/
def asked (scheduler : Scheduler α) : Scheduler α :=
  (scheduler.numbered.draft urgentTask .origin).1.opened scheduler.nextCall
    (.inserting scheduler.agenda.records.size true)

namespace Quiet

theorem firstDue_urgentTask (hquiet : scheduler.Quiet) :
    scheduler.firstDue urgentTask = .ok (.ok .origin) := by
  simp only [firstDue, urgentTask, hquiet.running, Agenda.now, hquiet.clock_eq]
  decide +kernel

/-- The task can be brought to an empty queue. -/
theorem brings (hquiet : scheduler.Quiet) (hentries : scheduler.agenda.queue.entries = [])
    (hreachable : Reachable config cores scheduler) :
    ∃ (after : Scheduler α) (entry : Entry) (record : Record α),
      Reachable config cores after ∧ after.Quiet ∧ after.backlog = scheduler.backlog ∧
      after.agenda.queue.entries = [entry] ∧ entry.key.due = .origin ∧
      after.record? entry.task = some record ∧ record.state = .pending := by
  have hroom := hreachable.sound.queue.isFull_eq_false hentries
  have hasked : Reachable config cores scheduler.asked :=
    hreachable.step _ (step_schedule hquiet.firstDue_urgentTask true)
  have hcalls : scheduler.asked.calls =
      [(scheduler.nextCall, .inserting scheduler.agenda.records.size true)] :=
    congrArg (· ++ _) hquiet.calls_eq
  have hlookup := congrArg (List.lookup scheduler.nextCall) hcalls
  rw [List.lookup_cons_self] at hlookup
  have hbrought := hasked.step _ (step_inserting hlookup hquiet.accepting hroom)
  have hrecord : scheduler.asked.record? scheduler.agenda.records.size =
      some (urgentTask.record .origin) :=
    Array.getElem?_push_size
  have hdue : scheduler.asked.agenda.dueOf scheduler.agenda.records.size = .origin :=
    congrArg (fun found => (found.map Record.nextRunAt).getD Moment.origin) hrecord
  refine ⟨_, ⟨⟨scheduler.asked.agenda.dueOf scheduler.agenda.records.size,
      scheduler.agenda.queue.nextSeq⟩, scheduler.agenda.records.size,
      scheduler.asked.agenda.periodicOf scheduler.agenda.records.size⟩,
    urgentTask.record .origin, hbrought,
    ⟨hquiet.running, hquiet.clock_eq, ?_, hquiet.jobs_eq, hquiet.accepting, hquiet.seeking,
      Queue.asleep_push hquiet.asleep_eq _ _ _⟩, rfl, ?_, hdue, hrecord, rfl⟩
  · exact (congrArg (List.filter _) hcalls).trans (by simp)
  · exact (congrArg (insertEntry _) hentries).trans rfl

/-- The task can be handed over. -/
theorem hands (hquiet : scheduler.Quiet) {entry : Entry} {record : Record α}
    (hentries : scheduler.agenda.queue.entries = [entry]) (hdue : entry.key.due = .origin)
    (hrecord : scheduler.record? entry.task = some record) (hpending : record.state = .pending)
    (hreachable : Reachable config cores scheduler) :
    ∃ after : Scheduler α, Reachable config cores after ∧ after.Quiet ∧
      after.backlog = scheduler.backlog ++ [entry.task] ∧ after.agenda.queue.entries = [] := by
  have hopen : scheduler.agenda.queue.admission ≠ .closed := by
    rw [hquiet.accepting]
    decide
  have hawake := Queue.isAsleep_eq_false_of_asleep_eq_nil hquiet.asleep_eq dispatcherCaller
  have hpast : entry.key.due ≤ scheduler.agenda.reading := hdue ▸ Nat.zero_le _
  have hreadable : scheduler.agenda.clock.isReadable = true := by
    rw [hquiet.clock_eq]
    decide
  have htaken := hreachable.step _ (step_took hquiet.seeking hawake hopen hentries hreadable hpast)
  have hholding : (scheduler.holding entry []).dispatcher = .holding entry.task := rfl
  obtain ⟨after, hstep, hseeking, hbacklog, hjobs, hcalls, hrunning, hclock, hqueue⟩ :=
    step_started hholding hrecord hpending
  refine ⟨after, htaken.step _ hstep, ?_, hbacklog, congrArg Queue.entries hqueue⟩
  exact
    { running := hrunning.trans hquiet.running
      clock_eq := hclock.trans hquiet.clock_eq
      calls_eq := hcalls.trans hquiet.calls_eq
      jobs_eq := hjobs.trans hquiet.jobs_eq
      accepting := (congrArg Queue.admission hqueue).trans hquiet.accepting
      seeking := hseeking
      asleep_eq := (congrArg (·.takers.asleep) hqueue).trans hquiet.asleep_eq }

end Quiet

/-- However many runs have been handed over, nobody asks whether a worker has taken one up. -/
theorem Reachable.exists_active (hreachable : Reachable config cores scheduler) (count : Nat) :
    ∃ busy : Scheduler α, Reachable config cores busy ∧ busy.active = count := by
  -- The backlog grows by one task at a time, while nobody takes anything up.
  suffices hall : ∃ busy : Scheduler α, Reachable config cores busy ∧ busy.Quiet ∧
      busy.agenda.queue.entries = [] ∧ busy.backlog.length = count by
    obtain ⟨busy, hbusy, hquiet, -, hlength⟩ := hall
    refine ⟨busy, hbusy, ?_⟩
    rw [active, hquiet.jobs_eq, hlength]
    rfl
  induction count with
  | zero =>
      obtain ⟨first, hcreated⟩ : ∃ first : Scheduler α, new config cores = .ok first := by
        induction hreachable with
        | start hcreated => exact ⟨_, hcreated⟩
        | step _ _ _ ih => exact ih
      have hfirst := Reachable.start hcreated
      obtain rfl := new_eq_ok hcreated
      exact ⟨_, hfirst, ⟨rfl, rfl, rfl, rfl, rfl, rfl, rfl⟩, rfl, rfl⟩
  | succ count ih =>
      obtain ⟨busy, hbusy, hquiet, hentries, hlength⟩ := ih
      obtain ⟨brought, entry, record, hbrought, hstill, hsame, hentry, hdue, hrecord, hpending⟩ :=
        hquiet.brings hentries hbusy
      obtain ⟨after, hafter, hlast, hbacklog, hempty⟩ :=
        hstill.hands hentry hdue hrecord hpending hbrought
      refine ⟨after, hafter, hlast, hempty, ?_⟩
      rw [hbacklog, hsame, List.length_append, hlength]
      rfl

/-! ## Jobs and runs in flight -/

/-- A task whose body waits at a gate. -/
def gatedTask : Submission Unit :=
  { name := "", schedule := .oneShot, delay := Span.zero
    script := fun _ => { gate? := some "gate", ending := .value () } }

/-- One worker, and two tasks that are due at once.  The body of the first waits at a gate, and
the second waits for the worker. -/
theorem exists_settled_overfull :
    ∃ scheduler : Scheduler Unit, Reachable { workers := 1 } 4 scheduler ∧
      scheduler.isSettled = true ∧ scheduler.backlog = [1] ∧ scheduler.jobs.length = 1 ∧
      scheduler.snapshot.workers = 1 ∧ scheduler.snapshot.active = 2 := by
  have hplayed : (played (α := Unit) { workers := 1 } 4
      [.request (.schedule gatedTask true), .proceed 0, .dispatch, .dispatch, .takeUp 0,
        .request (.schedule urgentTask true), .proceed 1, .dispatch, .dispatch, .dispatch]).map
        (fun result => (result.2.isSettled, result.2.backlog, result.2.jobs.length,
          result.2.snapshot.workers, result.2.snapshot.active)) =
      some (true, [1], 1, 1, 2) := by
    decide +kernel
  obtain ⟨⟨past, scheduler⟩, hresult, hparts⟩ := Option.map_eq_some_iff.mp hplayed
  simp only [Prod.mk.injEq] at hparts
  exact ⟨scheduler, (Run.of_played hresult).reachable, hparts⟩

/-- Busy workers keep within the pool, but the runs in flight do not.

A snapshot shows as many workers as the configuration gives the pool.  The jobs have different
workers of the pool, so no more bodies are run at once than there are workers.  The runs in
flight, which a snapshot shows as well, are the jobs and the backlog together.  They keep within
the pool only as long as there is a free worker for each run of the backlog, in a settled state
only if nothing waits; and under every configuration they can be any number. -/
theorem Reachable.occupancy (hreachable : Reachable config cores scheduler) :
    scheduler.snapshot.workers = config.resolvedWorkers cores ∧
      (scheduler.jobs.map Job.worker).Nodup ∧
      (∀ job ∈ scheduler.jobs, job.worker < scheduler.snapshot.workers) ∧
      scheduler.jobs.length ≤ scheduler.snapshot.workers ∧
      scheduler.snapshot.active = scheduler.jobs.length + scheduler.backlog.length ∧
      (scheduler.snapshot.active ≤ scheduler.snapshot.workers ↔
        scheduler.backlog.length ≤ scheduler.freeWorkers.length) ∧
      (scheduler.isSettled = true →
        (scheduler.snapshot.active ≤ scheduler.snapshot.workers ↔ scheduler.backlog = [])) ∧
      ∀ count, ∃ busy : Scheduler α, Reachable config cores busy ∧
        busy.snapshot.workers = scheduler.snapshot.workers ∧ busy.snapshot.active = count := by
  have hstaffed := hreachable.sound.staffed
  have hpool := hstaffed.length_jobs_add_freeWorkers hreachable.manned
  have hactive : scheduler.snapshot.active =
      scheduler.jobs.length + scheduler.backlog.length := Nat.add_comm ..
  have hworkers : scheduler.snapshot.workers = scheduler.workers := rfl
  have hwithin : scheduler.snapshot.active ≤ scheduler.snapshot.workers ↔
      scheduler.backlog.length ≤ scheduler.freeWorkers.length := by
    rw [hactive, hworkers]
    omega
  refine ⟨hreachable.workers_eq, hstaffed, hreachable.manned, by omega, hactive, hwithin,
    fun hsettled => hwithin.trans ⟨fun hle => ?_, fun hnone => ?_⟩, fun count => ?_⟩
  · by_contra hwaiting
    rw [freeWorkers_of_settled hsettled hwaiting, List.length_nil] at hle
    exact hwaiting (List.eq_nil_of_length_eq_zero (Nat.le_zero.mp hle))
  · rw [hnone, List.length_nil]
    exact Nat.zero_le _
  · obtain ⟨busy, hbusy, hcount⟩ := hreachable.exists_active count
    exact ⟨busy, hbusy, hbusy.workers_eq.trans hreachable.workers_eq.symm, hcount⟩

/-- The one worker keeps to the pool, and the run that waits for it is one too many. -/
theorem occupancy_with_run_waiting :
    ∃ scheduler : Scheduler Unit, Reachable { workers := 1 } 4 scheduler ∧
      scheduler.isSettled = true ∧ scheduler.jobs.length ≤ scheduler.snapshot.workers ∧
      scheduler.snapshot.active = scheduler.jobs.length + scheduler.backlog.length ∧
      ¬ scheduler.snapshot.active ≤ scheduler.snapshot.workers := by
  obtain ⟨scheduler, hreachable, hsettled, hbacklog, -, -, -⟩ := exists_settled_overfull
  obtain ⟨-, -, -, hjobs, hactive, -, hiff, -⟩ := hreachable.occupancy
  refine ⟨scheduler, hreachable, hsettled, hjobs, hactive, fun hle => ?_⟩
  exact absurd (hbacklog.symm.trans ((hiff hsettled).mp hle)) (List.cons_ne_nil _ _)

/-- A snapshot can show more runs in flight than there are workers. -/
theorem not_active_le_workers :
    ¬ ∀ scheduler : Scheduler Unit, Reachable { workers := 1 } 4 scheduler →
      scheduler.snapshot.active ≤ scheduler.snapshot.workers := by
  intro hall
  obtain ⟨scheduler, hreachable, -, -, -, hworkers, hactive⟩ := exists_settled_overfull
  have hle := hall scheduler hreachable
  rw [hworkers, hactive] at hle
  exact absurd hle (by decide)

end Scheduler

end TimedTasks
