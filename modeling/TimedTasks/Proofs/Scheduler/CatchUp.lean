import TimedTasks.Proofs.Scheduler.Cadence
import TimedTasks.Proofs.Scheduler.Repose

/-!
# Catching up

However far the clock is moved at once, a task with a fixed rate makes up for every run that has
become due meanwhile.  In a settled state it has run once for its first due time and once for
each period that has passed since then (`runsDue`), however the time has been split up and
whatever else the scheduler has had to do.

Two bounds make this an equation.  A run starts only when it is due, so there are not more runs
than that (`le_runsDue`).  When nothing can move any more and no body waits at a gate, all workers
are free and the task is back in the queue, and nothing that is queued there is due; so there are
not fewer.
-/

namespace TimedTasks

/-- How many runs with a fixed rate have become due. -/
def runsDue (first : Moment) (period : Span) (now : Moment) : Nat :=
  if now < first then 0 else 1 + (now.nanos - first.nanos) / period.nanos

section RunsDue

variable {first now : Moment} {period : Span} {count : Nat}

theorem le_runsDue (hperiod : 0 < period.nanos)
    (hstarted : 0 < count → first.nanos + (count - 1) * period.nanos ≤ now.nanos) :
    count ≤ runsDue first period now := by
  cases count with
  | zero => exact Nat.zero_le _
  | succ earlier =>
      have hlast : first.nanos + earlier * period.nanos ≤ now.nanos :=
        hstarted (Nat.succ_pos earlier)
      have hbegun : ¬ now < first := fun hlt =>
        absurd (Nat.lt_of_le_of_lt hlast hlt) (by omega)
      have hle : earlier ≤ (now.nanos - first.nanos) / period.nanos := by
        rw [Nat.le_div_iff_mul_le hperiod]
        omega
      rw [runsDue, if_neg hbegun]
      omega

theorem runsDue_le (hperiod : 0 < period.nanos)
    (hnext : now.nanos < first.nanos + count * period.nanos) :
    runsDue first period now ≤ count := by
  unfold runsDue
  split
  · exact Nat.zero_le _
  · rename_i hbegun
    have hle : first.nanos ≤ now.nanos := Nat.le_of_not_lt hbegun
    have hlt : (now.nanos - first.nanos) / period.nanos < count := by
      rw [Nat.div_lt_iff_lt_mul hperiod]
      omega
    omega

/-- When a period has passed for each run that has become due, the next one is still to come. -/
theorem lt_next_runsDue (hperiod : 0 < period.nanos) (first now : Moment) :
    now.nanos < first.nanos + runsDue first period now * period.nanos := by
  unfold runsDue
  split
  · rename_i hlt
    exact Nat.lt_of_lt_of_le hlt (Nat.le_add_right ..)
  · rename_i hbegun
    have hle : first.nanos ≤ now.nanos := Nat.le_of_not_lt hbegun
    have hlt := Nat.lt_mul_div_succ (now.nanos - first.nanos) hperiod
    rw [Nat.mul_comm, Nat.add_comm _ 1] at hlt
    omega

end RunsDue

/-- A periodic task does not come to an end by a run that has gone well. -/
theorem Schedule.outcome_ne_completed {schedule : Schedule} (hperiodic : schedule.isPeriodic = true)
    (policy : FailurePolicy) (dueAt completedAt : Moment) (error? : Option TaskError) :
    (schedule.verdict policy dueAt completedAt error?).outcome ≠ .completed := by
  unfold Schedule.verdict
  split
  · simp [Verdict.outcome]
  · rename_i hnone
    cases schedule with
    | oneShot => exact absurd hperiodic (by decide)
    | fixedRate | fixedDelay =>
        simp only [nextRun, after] at hnone
        split at hnone <;> simp at hnone
  · split <;> simp [Verdict.outcome]

namespace Scheduler

variable {α : Type} {origin before after scheduler : Scheduler α} {action : Action α}
variable {config : Config} {cores : Nat} {task : TaskId} {first : Moment} {period : Span}

/-! ## Bodies at gates -/

/-- No body of a task that has a record waits at a gate. -/
def Ungated (scheduler : Scheduler α) : Prop :=
  ∀ task record, scheduler.record? task = some record → ∀ run, (record.script run).gate? = none

theorem Scripted.passesGate (hscripted : scheduler.Scripted) (hungated : scheduler.Ungated)
    {job : Job α} (hjob : job ∈ scheduler.jobs) {turn : Turn α}
    (hstage : job.stage = .inside (some turn)) : scheduler.passesGate turn = true := by
  obtain ⟨record, hrecord, hrun⟩ := hscripted job hjob _ hstage
  obtain rfl := Option.some.inj hrun
  rw [Scheduler.passesGate, hungated job.task record hrecord record.runs]

/-- Unless it waits at a gate, every worker goes on with its job. -/
theorem exists_work {job : Job α}
    (hpasses : ∀ turn, job.stage = .inside (some turn) → scheduler.passesGate turn = true) :
    ∃ after, scheduler.work job = some after := by
  unfold work
  split
  · exact ⟨_, rfl⟩
  · rename_i turn hstage
    rw [if_pos (hpasses turn hstage)]
    exact ⟨_, rfl⟩
  · split
    · exact ⟨_, rfl⟩
    · split
      · exact ⟨_, rfl⟩
      · exact ⟨_, rfl⟩
  · split
    · exact ⟨_, rfl⟩
    · exact ⟨_, rfl⟩
  · exact ⟨_, rfl⟩

/-- Whether or not the clock can be read, a task does not stay in the backlog while there is a free
worker for it. -/
theorem exists_takeUp {position worker : Nat} (hwaiting : scheduler.backlog[position]? = some task)
    (hfree : scheduler.freeWorkers[position]? = some worker) :
    ∃ after, scheduler.takeUp position = some after := by
  simp only [takeUp, hwaiting, hfree]
  split
  · exact ⟨_, rfl⟩
  · exact ⟨_, rfl⟩

/-! ## Settled schedulers -/

theorem jobs_of_settled
    (hpasses : ∀ job ∈ scheduler.jobs, ∀ turn, job.stage = .inside (some turn) →
      scheduler.passesGate turn = true)
    (hsettled : scheduler.isSettled = true) : scheduler.jobs = [] := by
  by_contra hjobs
  obtain ⟨job, hjob⟩ := List.exists_mem_of_ne_nil _ hjobs
  have hcandidate : .work job.worker ∈ scheduler.candidates :=
    List.mem_append_right _ (List.mem_map_of_mem hjob)
  have hnone := step_eq_none_of_settled hsettled hcandidate
  cases hfind : scheduler.jobs.find? fun other => other.worker == job.worker with
  | none => simpa using List.find?_eq_none.mp hfind job hjob
  | some found =>
      obtain ⟨after, hwork⟩ := exists_work (hpasses found (List.mem_of_find?_eq_some hfind))
      simp [step, hfind, hwork] at hnone

theorem Scripted.jobs_of_settled (hscripted : scheduler.Scripted) (hungated : scheduler.Ungated)
    (hsettled : scheduler.isSettled = true) : scheduler.jobs = [] :=
  Scheduler.jobs_of_settled (fun _ hjob _ hstage => hscripted.passesGate hungated hjob hstage)
    hsettled

theorem Move.workers_eq (hmove : Move origin action before after) :
    after.workers = before.workers := by
  cases hmove <;> rfl

theorem Reachable.workers_eq (hreachable : Reachable config cores scheduler) :
    scheduler.workers = config.resolvedWorkers cores := by
  refine hreachable.induction_on_moves (p := fun state =>
      state.workers = config.resolvedWorkers cores) (fun first hcreated => ?_)
    fun _ _ _ _ _ hworkers hmove => hmove.workers_eq.trans hworkers
  obtain rfl := new_eq_ok hcreated
  rfl

theorem Reachable.workers_pos (hreachable : Reachable config cores scheduler) (hcores : 0 < cores) :
    0 < scheduler.workers := by
  rw [hreachable.workers_eq, Config.resolvedWorkers]
  split <;> omega

/-- A free worker takes up what waits in the backlog. -/
theorem backlog_of_settled (hsettled : scheduler.isSettled = true) (hjobs : scheduler.jobs = [])
    (hworkers : 0 < scheduler.workers) : scheduler.backlog = [] := by
  cases hbacklog : scheduler.backlog with
  | nil => rfl
  | cons waiting rest =>
      have hfree : scheduler.freeWorkers[0]? = some 0 := by
        have hall : scheduler.freeWorkers = List.range scheduler.workers := by
          simp [freeWorkers, hjobs]
        rw [hall, List.getElem?_range hworkers]
      have hnone : scheduler.takeUp 0 = none :=
        step_eq_none_of_settled hsettled
          (by simp [candidates] : .takeUp 0 ∈ scheduler.candidates)
      obtain ⟨after, htakeUp⟩ := exists_takeUp (hbacklog ▸ List.getElem?_cons_zero) hfree
      exact absurd (hnone.symm.trans htakeUp) (by simp)

/-- In a settled state without runs in flight, whatever has not come to an end is queued as long as
the clock can be read. -/
theorem Sound.queued_of_settled (hsound : scheduler.Sound) (hsettled : scheduler.isSettled = true)
    (hreadable : scheduler.agenda.clock.isReadable = true)
    (hbacklog : scheduler.backlog = []) (hjobs : scheduler.jobs = [])
    (haccepted : task ∈ scheduler.accepted) (hlive : scheduler.IsLive task) :
    task ∈ scheduler.tasksAt .queued := by
  have hlost : task ∉ scheduler.lostTasks := by
    rw [lostTasks, (hsound.intact hreadable).1]
    exact List.not_mem_nil
  have hmem := hsound.mem_of_settled hsettled haccepted hlive hlost
  rwa [inFlight, hbacklog, hjobs, List.map_nil, List.append_nil, List.append_nil] at hmem

/-! ## Runs that have started -/

/-- The last entry into the body of a task has the number of its runs. -/
theorem Reachable.exists_last_entry (hreachable : Reachable config cores scheduler)
    (hstarted : 0 < scheduler.agenda.entries task) :
    ∃ now due worker, now ≤ scheduler.agenda.reading ∧
      .entered task (scheduler.agenda.entries task) now due worker ∈ scheduler.agenda.history := by
  induction hreachable with
  | start hcreated =>
      obtain ⟨-, hnone⟩ := Prod.mk.inj (standing_new hcreated task)
      exact absurd hstarted (by rw [hnone]; decide)
  | @step before after hreached action hstep ih =>
      have hnow := reading_le_of_step hreached.sound hstep
      -- What has been entered before stays in the history, and the clock has not gone back.
      have hold : after.agenda.entries task = before.agenda.entries task →
          (∀ event ∈ before.agenda.bodies, event ∈ after.agenda.bodies) →
          ∃ now due worker, now ≤ after.agenda.reading ∧
            .entered task (after.agenda.entries task) now due worker ∈ after.agenda.history := by
        intro hentries hkept
        rw [hentries] at hstarted ⊢
        obtain ⟨now, due, worker, hle, hmem⟩ := ih hstarted
        exact ⟨now, due, worker, Nat.le_trans hle hnow,
          Agenda.mem_bodies.mp (hkept _ (Agenda.mem_bodies.mpr hmem))⟩
      rcases hreached.enters_of_step hstep with hsame | ⟨moved, record, run, worker, henters, -⟩
      · refine hold ?_ fun _ hmem => hsame ▸ hmem
        rw [Agenda.entries_eq_countP_bodies, Agenda.entries_eq_countP_bodies, hsame]
      · have hbodies := henters.bodies_eq
        have hentries := Agenda.entries_of_entered hbodies task
        by_cases htask : moved = task
        · subst htask
          have hbacklog : moved ∈ before.tasksAt .backlog := henters.mem
          obtain ⟨-, hfits⟩ := hreached.sound.custody.fitsAt_of_mem hbacklog
          obtain ⟨-, hfresh⟩ := hfits.holds henters.record_eq
          obtain ⟨turn, hbody⟩ := henters.body
          have hrun := Record.run_of_enter hbody fun honce => (hfresh honce).1
          have hruns : before.agenda.entries moved = record.runs := by
            rw [hreached.tallied moved, henters.record_eq]
            rfl
          rw [if_pos rfl, hruns, ← hrun] at hentries
          refine ⟨before.agenda.reading, record.nextRunAt, worker, hnow, Agenda.mem_bodies.mp ?_⟩
          rw [hentries, hbodies]
          exact List.mem_cons_self ..
        · rw [if_neg htask] at hentries
          exact hold hentries fun _ hmem => hbodies ▸ List.mem_cons_of_mem _ hmem

/-- The last run of a task with a fixed rate has not started before it was due. -/
theorem Cadence.last_le {record : Record α} (hreachable : Reachable config cores scheduler)
    (hcadence : Cadence first period task scheduler record)
    (hstarted : 0 < scheduler.agenda.entries task) :
    first.nanos + (scheduler.agenda.entries task - 1) * period.nanos ≤
      scheduler.agenda.reading.nanos := by
  obtain ⟨now, due, worker, hnow, hmem⟩ := hreachable.exists_last_entry hstarted
  obtain ⟨count, hcount, hdue, hle⟩ := hcadence.entered _ _ _ _ hmem
  calc first.nanos + (scheduler.agenda.entries task - 1) * period.nanos
      = due.nanos := by rw [hcount, hdue, Nat.add_sub_cancel]
    _ ≤ now.nanos := hle
    _ ≤ scheduler.agenda.reading.nanos := hnow

/-! ## Ends of periodic tasks -/

theorem Reachable.not_completed (hreachable : Reachable config cores scheduler)
    {record : Record α} (hrecord : scheduler.record? task = some record)
    (hperiodic : record.isPeriodic = true) : record.state ≠ .completed := by
  refine hreachable.induction_on_moves (p := fun state => ∀ task record,
    state.record? task = some record → record.isPeriodic = true → record.state ≠ .completed)
    (fun first hcreated task record hrecord => ?_)
    (fun origin action first second hsound hfirst hmove task later hlater hperiodic => ?_)
    task record hrecord hperiodic
  · obtain ⟨hnone, -⟩ := Prod.mk.inj (standing_new hcreated task)
    exact absurd (hnone.symm.trans hrecord) (by simp)
  · cases hrecord : first.record? task with
    | none =>
        obtain ⟨submission, due, -, -, rfl⟩ :=
          (hmove.fate hsound.custody task).submitted hrecord hlater
        simp [Submission.record]
    | some record =>
        obtain ⟨found, hfound, hevolves⟩ := hmove.recordsEvolve hsound.custody task record hrecord
        obtain rfl := Option.some.inj (hfound.symm.trans hlater)
        have hbefore : record.isPeriodic = true := hevolves.isPeriodic_eq.symm.trans hperiodic
        -- Only settling a run can complete a task, and no verdict on a periodic task does.
        rcases hmove.settling_or_rests hsound task with hsettling | hrests
        · obtain @⟨job, error?, -, -, -, hjudged, -⟩ := hsettling
          obtain rfl := Option.some.inj ((hjudged record hrecord).symm.trans hlater)
          rw [Record.judged_state]
          split
          · exact Schedule.outcome_ne_completed hbefore _ _ _ error?
          · exact hfirst task record hrecord hbefore
        · obtain ⟨same, hsame, hrest⟩ := hrests.record record hrecord
          obtain rfl := Option.some.inj (hsame.symm.trans hlater)
          intro hcompleted
          obtain rfl := hrest.finished (Or.inl hcompleted)
          exact hfirst task same hrecord hbefore hcompleted

/-! ## All runs that are due -/

/-- A task with a fixed rate does not fail as long as its next run can be represented. -/
theorem Cadence.isDone_eq_false {record : Record α}
    (hreachable : Reachable config cores scheduler)
    (hrecord : scheduler.record? task = some record) (hperiod : 0 < period.nanos)
    (hcadence : Cadence first period task scheduler record) (hcancelled : record.state ≠ .cancelled)
    (hhorizon : first.nanos + runsDue first period scheduler.agenda.reading * period.nanos <
      Moment.horizon) : record.isDone = false := by
  have hperiodic : record.isPeriodic = true := by
    rw [Record.isPeriodic, hcadence.schedule_eq]
    rfl
  have hcompleted := hreachable.not_completed hrecord hperiodic
  have hfailed : record.state ≠ .failed := by
    intro hfailed
    obtain ⟨hout, -⟩ := hcadence.failed hfailed
    have hle := le_runsDue hperiod (hcadence.last_le hreachable)
    have hmul := Nat.mul_le_mul_right period.nanos hle
    have hover := hout.horizon_le
    omega
  cases hstate : record.state with
  | pending | running => rw [Record.isDone, hstate]; rfl
  | completed => exact absurd hstate hcompleted
  | failed => exact absurd hstate hfailed
  | cancelled => exact absurd hstate hcancelled

/-- In a settled state in which no body waits at a gate, a task with a fixed rate that has been
accepted and not cancelled has had all runs that have become due, and is due next when a period
has passed for each of them; provided that this moment can be represented. -/
theorem Reachable.caught_up (hreachable : Reachable config cores before) (hcores : 0 < cores)
    (hpolicy : config.policy = .keepGoing) {submission : Submission α} {patient : Bool}
    (hschedule : submission.schedule = .fixedRate period)
    (hdue : before.firstDue submission = .ok (.ok first)) {asked : Scheduler α}
    (hstep : before.step (.request (.schedule submission patient)) = some asked)
    (hleads : asked.Leads after) (htask : task = before.agenda.records.size)
    (haccepted : task ∈ after.accepted) (hungated : after.Ungated)
    (hsettled : after.isSettled = true) :
    ∃ record, after.record? task = some record ∧
      (record.state ≠ .cancelled →
        first.nanos + runsDue first period after.agenda.reading * period.nanos < Moment.horizon →
        record.runs = runsDue first period after.agenda.reading ∧
          record.nextRunAt.nanos = first.nanos + record.runs * period.nanos ∧
          after.agenda.reading < record.nextRunAt) := by
  subst htask
  have hasked : Reachable config cores asked := .step hreachable _ hstep
  have hlast := hleads.reachable hasked
  obtain ⟨record, hrecord, hcadence⟩ := Leads.cadence hleads hasked hpolicy
    (hreachable.cadence_of_request hschedule hdue hstep)
  have hperiod : 0 < period.nanos := by
    have hzero := (firstDue_eq_ok hdue).1
    rw [hschedule] at hzero
    simpa [Schedule.period?, Span.isZero, Nat.pos_iff_ne_zero] using hzero
  refine ⟨record, hrecord, fun hcancelled hhorizon => ?_⟩
  have hlive := hcadence.isDone_eq_false hlast hrecord hperiod hcancelled hhorizon
  -- With nothing in flight the task is queued, and what is queued is not due.
  have hjobs := hlast.scripted.jobs_of_settled hungated hsettled
  have hworkers := hlast.workers_pos hcores
  have hbacklog := backlog_of_settled hsettled hjobs hworkers
  -- The clock can be read, as even the next due time can be represented.
  have hreadable : after.agenda.clock.isReadable = true :=
    decide_eq_true (Nat.lt_trans (lt_next_runsDue hperiod first after.agenda.reading) hhorizon)
  have hqueued := hlast.sound.queued_of_settled hsettled hreadable hbacklog hjobs haccepted
    ⟨record, hrecord, hlive⟩
  have hnext : after.agenda.reading < record.nextRunAt := by
    obtain ⟨entry, hentry, heq⟩ := List.mem_map.mp hqueued
    have hearly := hlast.lt_due_of_settled hsettled (hlast.sound.intact hreadable).2 hentry
    rwa [hlast.punctual.entry entry hentry, heq, dueOf_eq_nextRunAt hrecord] at hearly
  have hruns : after.agenda.entries before.agenda.records.size = record.runs := by
    rw [hlast.tallied, hrecord]
    rfl
  have hbeat : record.nextRunAt.nanos = first.nanos + record.runs * period.nanos := by
    rcases hcadence.beat with hbeat | hout
    · have hzero := hlast.sound.custody.inProgress_eq_zero hqueued (by decide) (by decide)
      rwa [hzero, hruns, Nat.zero_mul, Nat.add_zero] at hbeat
    · exact absurd (hlive.symm.trans hout.isDone) Bool.false_ne_true
  have hstarted := hcadence.last_le hlast
  rw [hruns] at hstarted
  refine ⟨Nat.le_antisymm (le_runsDue hperiod hstarted) (runsDue_le hperiod ?_), hbeat, hnext⟩
  exact hbeat ▸ hnext

/-- The clock has been moved over three due times at once, and all three runs have been made up
for. -/
theorem caught_up_after_three_periods :
    ∃ (after : Scheduler Unit) (record : Record Unit), Reachable {} 1 after ∧
      after.isSettled = true ∧ after.agenda.reading = ⟨3500000000⟩ ∧ after.record? 0 = some record ∧
      record.runs = 3 ∧ record.nextRunAt = ⟨4000000000⟩ ∧
      after.agenda.reading < record.nextRunAt := by
  have hview : (played {} 1 []).bind (fun result =>
      (replay [] (result.2.request
          (.schedule (plainTask (.fixedRate (.ofSeconds 1)) (.ofSeconds 1)) true))
        ([.proceed 0, .advance ⟨3500000000⟩, .announce] ++
          [.dispatch, .dispatch, .takeUp 0, .work 0, .work 0, .work 0] ++
          [.dispatch, .dispatch, .takeUp 0, .work 0, .work 0, .work 0] ++
          [.dispatch, .dispatch, .takeUp 0, .work 0, .work 0, .work 0] ++ [.dispatch])).map
        fun final =>
          (((result.2.firstDue (plainTask (.fixedRate (.ofSeconds 1)) (.ofSeconds 1))).toOption.bind
              Except.toOption, result.2.agenda.records.size),
            (final.2.isSettled, final.2.agenda.reading, final.2.accepted),
            (final.2.record? 1).isNone,
            (final.2.record? 0).map fun record => record.isCancelled)) =
      some ((some ⟨1000000000⟩, 0), (true, ⟨3500000000⟩, [0]), true, some false) := by
    decide +kernel
  obtain ⟨⟨past, before⟩, hplayed, hreplayed⟩ := Option.bind_eq_some_iff.mp hview
  obtain ⟨⟨later, after⟩, hreplay, hparts⟩ := Option.map_eq_some_iff.mp hreplayed
  simp only [Prod.mk.injEq] at hparts
  obtain ⟨⟨hdue, hsize⟩, ⟨hsettled, hnow, haccepted⟩, hone, hcancelled⟩ := hparts
  have hreachable := (Run.of_played hplayed).reachable
  have hleads := Leads.of_replay .refl hreplay
  obtain ⟨looked, hlooked, hfirst⟩ := Option.bind_eq_some_iff.mp hdue
  obtain rfl := eq_ok_of_toOption hfirst
  have hdue := eq_ok_of_toOption hlooked
  have hstep : before.step (.request
      (.schedule (plainTask (.fixedRate (.ofSeconds 1)) (.ofSeconds 1)) true)) =
        some (before.request _) := rfl
  have hasked : Reachable {} 1 _ := .step hreachable _ hstep
  have hungated : after.Ungated := by
    intro task record hrecord run
    by_cases htask : task = 0
    · subst htask
      have hsubmitted := record?_of_asked hdue hstep
      rw [hsize] at hsubmitted
      obtain ⟨later, hlater, hevolves⟩ := hleads.recordsEvolve hasked 0 _ hsubmitted
      obtain rfl := Option.some.inj (hlater.symm.trans hrecord)
      rw [hevolves.script_eq]
      rfl
    · have hless : after.agenda.records.size ≤ 1 :=
        Array.getElem?_eq_none_iff.mp (Option.isNone_iff_eq_none.mp hone)
      have hnone : after.record? task = none :=
        Array.getElem?_eq_none_iff.mpr (Nat.le_trans hless (Nat.pos_of_ne_zero htask))
      exact absurd (hnone.symm.trans hrecord) (by simp)
  obtain ⟨record, hrecord, hcount⟩ := hreachable.caught_up (by decide) rfl rfl hdue hstep hleads
    hsize.symm (by rw [haccepted]; decide) hungated hsettled
  have hrunsDue : runsDue ⟨1000000000⟩ (.ofSeconds 1) after.agenda.reading = 3 := by
    rw [hnow]
    decide
  rw [hrecord] at hcancelled
  obtain ⟨hruns, hnext, hlater⟩ := hcount (by simpa [Record.isCancelled] using hcancelled)
    (by rw [hrunsDue]; decide)
  rw [hrunsDue] at hruns
  rw [hruns] at hnext
  exact ⟨after, record, hleads.reachable hasked, hsettled, hnow, hrecord, hruns,
    congrArg Moment.mk hnext, hlater⟩

end Scheduler

end TimedTasks
