import TimedTasks.Proofs.Scheduler.Progress
import TimedTasks.Proofs.Scheduler.Settling

/-!
# Never early, and always forward

A body is never entered before its due time.  The due time of a task is copied into the key
of its entry when the task goes into the queue, and into the job when its body is entered;
between the two the dispatcher has compared the key with the clock.  So the copies have to
agree with the record as long as they are in use, and this is what `Punctual` says: from
the queue to the end of the run nobody moves the due time of the task.

When a run has been settled and the task is pending again, its due time has moved on.  With a
fixed rate it is a period later than before; with a fixed delay it is a period later than the
clock, which had reached the old due time by then; and in both cases a period of zero has been
refused when the task was submitted.
-/

namespace TimedTasks

/-! ## Verdicts -/

/-- The next run is due later than the last one, if that was not early. -/
theorem Schedule.lt_of_verdict_rearm {schedule : Schedule} {policy : FailurePolicy}
    {dueAt completedAt next : Moment} {error? : Option TaskError}
    (hperiod : schedule.period?.any Span.isZero = false) (hdue : dueAt ≤ completedAt)
    (hverdict : schedule.verdict policy dueAt completedAt error? = .rearm next) :
    dueAt < next := by
  obtain ⟨period, base, hsome, hbase, hadd⟩ :=
    Schedule.add?_of_nextRun (Schedule.nextRun_of_verdict_rearm hverdict)
  have hpositive : period.nanos ≠ 0 := by
    intro hzero
    simp [hsome, Span.isZero, hzero] at hperiod
  have hnext := (Moment.add?_eq_some_iff.mp hadd).1
  have hle : dueAt ≤ base := by
    rcases hbase with rfl | rfl
    · exact Nat.le_refl _
    · exact hdue
  calc dueAt.nanos
      ≤ base.nanos := hle
    _ < base.nanos + period.nanos := by omega
    _ = next.nanos := hnext.symm

namespace Record

variable {α : Type} {record first second third : Record α}

/-- The due time never moves back, and it moves on if the task becomes pending. -/
structure Advances (before after : Record α) : Prop where
  due_le : before.nextRunAt ≤ after.nextRunAt
  due_lt : after.state = .pending → before.state = .pending ∨ before.nextRunAt < after.nextRunAt

theorem Advances.refl (record : Record α) : record.Advances record :=
  ⟨Nat.le_refl _, Or.inl⟩

theorem Advances.trans (hfirst : first.Advances second) (hsecond : second.Advances third) :
    first.Advances third where
  due_le := Nat.le_trans hfirst.due_le hsecond.due_le
  due_lt := by
    intro hpending
    rcases hsecond.due_lt hpending with hmiddle | hlt
    · exact (hfirst.due_lt hmiddle).imp_right fun hlt => Nat.lt_of_lt_of_le hlt hsecond.due_le
    · exact Or.inr (Nat.lt_of_le_of_lt hfirst.due_le hlt)

theorem Rests.advances (hrests : first.Rests second) : first.Advances second :=
  ⟨Nat.le_of_eq (congrArg Moment.nanos hrests.due_eq).symm,
    fun hpending => Or.inl (hrests.pending hpending)⟩

/-- A run that is settled moves the due time on, or the task does not become pending. -/
theorem IsBusy.advances_judged (hbusy : record.IsBusy)
    (hperiod : record.schedule.period?.any Span.isZero = false) {policy : FailurePolicy}
    {completedAt : Moment} (hdue : record.nextRunAt ≤ completedAt) (error? : Option TaskError) :
    record.Advances (record.judged
      (record.schedule.verdict policy record.nextRunAt completedAt error?)).1 := by
  cases hverdict : record.schedule.verdict policy record.nextRunAt completedAt error? with
  | rearm next =>
      have hlt := Schedule.lt_of_verdict_rearm hperiod hdue hverdict
      have hnext : (record.judged (.rearm next)).1.nextRunAt = next := record.judged_nextRunAt _
      constructor
      · rw [hnext]
        exact Nat.le_of_lt hlt
      · intro _
        rw [hnext]
        exact Or.inr hlt
  | giveUp error =>
      have hsame : (record.judged (.giveUp error)).1.nextRunAt = record.nextRunAt :=
        record.judged_nextRunAt _
      refine ⟨Nat.le_of_eq (congrArg Moment.nanos hsame).symm, fun hpending => ?_⟩
      rw [judged_state] at hpending
      rcases hbusy with hstate | hstate <;> simp [hstate, Verdict.outcome] at hpending
  | finish outcome =>
      have hsame : (record.judged (.finish outcome)).1.nextRunAt = record.nextRunAt :=
        record.judged_nextRunAt _
      refine ⟨Nat.le_of_eq (congrArg Moment.nanos hsame).symm, fun hpending => ?_⟩
      rw [judged_state] at hpending
      rcases Schedule.eq_or_eq_of_verdict_finish hverdict with rfl | rfl <;>
        rcases hbusy with hstate | hstate <;> simp [hstate, Verdict.outcome] at hpending

end Record

namespace Scheduler

variable {α : Type} {origin before after scheduler : Scheduler α} {action : Action α}
variable {config : Config} {cores : Nat} {task : TaskId}

/-! ## The clock -/

/-- The clock stands still or is moved on.  When it is moved, the queue has still to be told of
it, unless the dispatcher has been woken at once; and only the dispatcher being woken can
bring down the number of moves that have still to be told. -/
theorem Move.clock_cases (hmove : Move origin action before after) :
    (after.agenda.clock = before.agenda.clock ∧
        (after.unannounced = before.unannounced ∨ after.agenda.queue.takers.asleep = [])) ∨
      (∃ move, before.agenda.clock.advance move = .ok after.agenda.clock) ∧
        (after.unannounced ≠ 0 ∨ after.agenda.queue.takers.asleep = []) := by
  cases hmove with
  | clockMoved hclock => exact Or.inr ⟨⟨_, hclock⟩, Or.inl (Nat.succ_ne_zero _)⟩
  | timePassed hclock => exact Or.inr ⟨⟨_, hclock⟩, Or.inr rfl⟩
  | announced => exact Or.inl ⟨rfl, Or.inr rfl⟩
  | @tookUp _ task worker =>
      obtain ⟨records, history, henter⟩ :=
        before.agenda.enter_fst task worker before.agenda.reading
      rw [henter]
      exact Or.inl ⟨rfl, Or.inl rfl⟩
  | settled _ _ hsettle | rearmed _ _ hsettle =>
      exact Or.inl ⟨(Agenda.kept_settle hsettle).clock_eq, Or.inl rfl⟩
  | _ => exact Or.inl ⟨rfl, Or.inl rfl⟩

theorem Move.reading_le (hmove : Move origin action before after) :
    before.agenda.reading ≤ after.agenda.reading := by
  rcases hmove.clock_cases with ⟨hsame, -⟩ | ⟨⟨move, hadvance⟩, -⟩
  · exact Nat.le_of_eq (congrArg (·.reading.nanos) hsame).symm
  · exact ManualClock.reading_le_of_advance hadvance

theorem reading_le_of_step (hsound : before.Sound) (hstep : before.step action = some after) :
    before.agenda.reading ≤ after.agenda.reading :=
  of_step (p := fun state => before.agenda.reading ≤ state.agenda.reading) hsound hstep
    (Nat.le_refl _) fun _ _ _ hle hmove => Nat.le_trans hle hmove.reading_le

/-! ## Due times while a task is in somebody's hands -/

theorem dueOf_eq_nextRunAt {record : Record α} (hrecord : scheduler.record? task = some record) :
    scheduler.agenda.dueOf task = record.nextRunAt := by
  have hfound : scheduler.agenda.records[task]? = some record := hrecord
  rw [Agenda.dueOf, hfound]
  rfl

theorem Rests.dueOf_eq (hrests : Rests before after task)
    (hrecord : ∃ record, before.record? task = some record) :
    after.agenda.dueOf task = before.agenda.dueOf task := by
  obtain ⟨record, hbefore⟩ := hrecord
  obtain ⟨later, hafter, hlater⟩ := hrests.record record hbefore
  rw [dueOf_eq_nextRunAt hafter, dueOf_eq_nextRunAt hbefore, hlater.due_eq]

/-- The due time of a task changes only while the task runs. -/
theorem Move.dueOf_eq (hmove : Move origin action before after) (hsound : before.Sound)
    {place : Place} (hmem : task ∈ before.tasksAt place) (hne : place ≠ .running) :
    after.agenda.dueOf task = before.agenda.dueOf task := by
  rcases hmove.settling_or_rests hsound task with hsettling | hrests
  · exact absurd hsettling.mem_running (hsound.custody.not_mem_of_mem hmem hne)
  · exact hrests.dueOf_eq (hsound.custody.fitsAt_of_mem hmem).exists_record

/-- The tasks that the dispatcher has taken and no worker has taken up. -/
def handed (scheduler : Scheduler α) : List TaskId :=
  scheduler.dispatcher.hand ++ scheduler.backlog

/-- The dispatcher takes an entry only when its key says that it is due. -/
theorem Move.handed_cases (hmove : Move origin action before after) (hmem : task ∈ after.handed) :
    task ∈ before.handed ∨
      ∃ entry ∈ before.agenda.queue.entries, entry.task = task ∧
        entry.key.due ≤ before.agenda.reading := by
  cases hmove with
  | @took first rest hdispatcher _ _ hentries hdue =>
      rcases List.mem_cons.mp hmem with rfl | hbacklog
      · exact Or.inr ⟨first, hentries ▸ List.mem_cons_self .., rfl, hdue⟩
      · exact Or.inl (List.mem_append_right _ hbacklog)
  | @started moved _ _ hdispatcher =>
      have hall : task ∈ before.backlog ∨ task = moved := by
        simpa [handed, Dispatcher.hand] using hmem
      refine Or.inl ?_
      rw [handed, hdispatcher]
      rcases hall with hbacklog | rfl
      · exact List.mem_append_right _ hbacklog
      · exact List.mem_append_left _ (List.mem_singleton_self _)
  | ceased | discarded | idled | stopped | broke =>
      exact Or.inl (List.mem_append_right _ hmem)
  | tookUp | lostUnentered =>
      refine Or.inl ?_
      rcases List.mem_append.mp hmem with hhand | hbacklog
      · exact List.mem_append_left _ hhand
      · exact List.mem_append_right _ (List.mem_of_mem_eraseIdx hbacklog)
  | _ => exact Or.inl hmem

/-- A worker runs a task for the due time that its record had when the body was entered. -/
theorem Move.job_cases (hmove : Move origin action before after) {job : Job α}
    (hjob : job ∈ after.jobs) (hplace : job.place = .running) :
    (∃ old ∈ before.jobs, old.place = .running ∧ old.task = job.task ∧ old.dueAt = job.dueAt) ∨
      (∃ position, action = .takeUp position) ∧ job.task ∈ before.backlog ∧
        job.dueAt = before.agenda.dueOf job.task := by
  have hgoOn : ∀ {current : Job α} {stage : Stage α}, current ∈ before.jobs →
      (Job.place { current with stage } = .running → current.place = .running) →
      job ∈ (before.goOnWith current stage).jobs →
      ∃ old ∈ before.jobs, old.place = .running ∧ old.task = job.task ∧ old.dueAt = job.dueAt := by
    intro current stage hcurrent hrunning hmem
    rcases mem_jobs_goOnWith hmem with hsame | rfl
    · exact ⟨job, hsame, hplace, rfl, rfl⟩
    · exact ⟨current, hcurrent, hrunning hplace, rfl, rfl⟩
  have hold : job ∈ before.jobs →
      ∃ old ∈ before.jobs, old.place = .running ∧ old.task = job.task ∧ old.dueAt = job.dueAt :=
    fun hmem => ⟨job, hmem, hplace, rfl, rfl⟩
  cases hmove with
  | @tookUp position moved worker hmoved _ hcause =>
      rcases List.mem_append.mp hjob with hmem | hnew
      · exact Or.inl (hold hmem)
      · obtain ⟨turn?, henter⟩ := before.agenda.enter_snd moved worker before.agenda.reading
        rw [henter, List.mem_singleton] at hnew
        subst hnew
        exact Or.inr ⟨⟨position, hcause⟩, List.mem_of_getElem? hmoved, rfl⟩
  | skipped hmem hstage | ended _ hmem hstage =>
      exact Or.inl (hgoOn hmem (fun _ => by rw [Job.place, hstage]) hjob)
  | rearmed hmem | requeueRefused hmem =>
      exact Or.inl (hgoOn hmem (fun hrunning => by simp [Job.place] at hrunning) hjob)
  | settled | requeued | dropped | letGo | lostUncounted =>
      exact Or.inl (hold (List.mem_of_mem_filter hjob))
  | _ => exact Or.inl (hold hjob)

theorem Move.running_cases (hmove : Move origin action before after)
    (hmem : task ∈ after.tasksAt .running) :
    task ∈ before.tasksAt .running ∨
      (∃ position, action = .takeUp position) ∧ task ∈ before.backlog := by
  obtain ⟨job, hjob, hplace, rfl⟩ := exists_job_of_running hmem
  rcases hmove.job_cases hjob hplace with ⟨old, hold, hrunning, htask, -⟩ | ⟨hcause, hwaits, -⟩
  · exact Or.inl (htask ▸ hrunning ▸ mem_tasksAt_place hold)
  · exact Or.inr ⟨hcause, hwaits⟩

/-- From the queue to the end of the run, all copies of a due time agree with the record, and
it has come when the dispatcher takes the task. -/
structure Punctual (scheduler : Scheduler α) : Prop where
  entry : ∀ entry ∈ scheduler.agenda.queue.entries,
    entry.key.due = scheduler.agenda.dueOf entry.task
  handed : ∀ task ∈ scheduler.handed, scheduler.agenda.dueOf task ≤ scheduler.agenda.reading
  job : ∀ job ∈ scheduler.jobs, job.place = .running →
    job.dueAt = scheduler.agenda.dueOf job.task ∧ job.dueAt ≤ scheduler.agenda.reading
  period : ∀ task record, scheduler.record? task = some record →
    record.schedule.period?.any Span.isZero = false

theorem exists_place_of_handed (hmem : task ∈ scheduler.handed) :
    ∃ place, place ≠ .running ∧ task ∈ scheduler.tasksAt place := by
  rcases List.mem_append.mp hmem with hhand | hbacklog
  · exact ⟨.held, by decide, hhand⟩
  · exact ⟨.backlog, by decide, hbacklog⟩

theorem Move.punctual (hmove : Move origin action before after) (hsound : before.Sound)
    (hpunctual : before.Punctual) : after.Punctual where
  entry := by
    intro entry hentry
    rcases hmove.entry_of_mem hsound hentry with hold | ⟨-, hdue⟩
    · have hmem : entry.task ∈ before.tasksAt .queued := List.mem_map_of_mem hold
      calc entry.key.due
          = before.agenda.dueOf entry.task := hpunctual.entry entry hold
        _ = after.agenda.dueOf entry.task := (hmove.dueOf_eq hsound hmem (by decide)).symm
    · exact hdue
  handed := by
    intro task htask
    -- Wherever the task has come from, its due time does not change on the way.
    have hdue : ∃ place, place ≠ .running ∧ task ∈ before.tasksAt place ∧
        before.agenda.dueOf task ≤ before.agenda.reading := by
      rcases hmove.handed_cases htask with hold | ⟨entry, hentry, rfl, hdue⟩
      · obtain ⟨place, hne, hmem⟩ := exists_place_of_handed hold
        exact ⟨place, hne, hmem, hpunctual.handed task hold⟩
      · exact ⟨.queued, by decide, List.mem_map_of_mem hentry, hpunctual.entry entry hentry ▸ hdue⟩
    obtain ⟨place, hne, hmem, hdue⟩ := hdue
    rw [hmove.dueOf_eq hsound hmem hne]
    exact Nat.le_trans hdue hmove.reading_le
  job := by
    intro job hjob hplace
    have hafter : 0 < after.inProgress job.task :=
      Nat.add_pos_left (List.count_pos_iff.mpr (hplace ▸ mem_tasksAt_place hjob)) _
    have hbefore : (∃ record, before.record? job.task = some record) ∧
        job.dueAt = before.agenda.dueOf job.task ∧ job.dueAt ≤ before.agenda.reading := by
      rcases hmove.job_cases hjob hplace with ⟨old, hold, hrunning, htask, hdueAt⟩ | hnew
      · rw [← htask, ← hdueAt]
        have hmem := mem_tasksAt_place hold
        exact ⟨(hsound.custody.fitsAt_of_mem hmem).exists_record, hpunctual.job old hold hrunning⟩
      · obtain ⟨-, hbacklog, hdueAt⟩ := hnew
        have hmem : job.task ∈ before.tasksAt .backlog := hbacklog
        have hhanded := hpunctual.handed job.task (List.mem_append_right _ hbacklog)
        exact ⟨(hsound.custody.fitsAt_of_mem hmem).exists_record, hdueAt, hdueAt ▸ hhanded⟩
    obtain ⟨hrecord, hdueAt, hnow⟩ := hbefore
    refine ⟨?_, Nat.le_trans hnow hmove.reading_le⟩
    rcases hmove.settling_or_rests hsound job.task with ⟨-, -, -, -, -, -, hzero⟩ | hrests
    · omega
    · exact hdueAt.trans (hrests.dueOf_eq hrecord).symm
  period := fun task _ hlater =>
    (hmove.fate hsound.custody task).holds (fun _ _ hdue => (firstDue_eq_ok hdue).1)
      (fun _ _ hevolves hperiod => hevolves.schedule_eq ▸ hperiod) (hpunctual.period task) hlater

theorem Reachable.punctual (hreachable : Reachable config cores scheduler) :
    scheduler.Punctual := by
  refine hreachable.induction_on_moves (fun first hcreated => ?_)
    fun _ _ _ _ hsound hpunctual hmove => hmove.punctual hsound hpunctual
  obtain rfl := new_eq_ok hcreated
  constructor
  · exact fun entry hentry => absurd hentry List.not_mem_nil
  · exact fun task htask => absurd htask List.not_mem_nil
  · exact fun job hjob => absurd hjob List.not_mem_nil
  · exact fun task record hrecord => by simp [record?] at hrecord

/-- A run is settled for the due time of the record, and not before that has come. -/
theorem Settling.judged (hsettling : Settling before after task) (hsound : before.Sound)
    (hpunctual : before.Punctual) {record : Record α}
    (hrecord : before.record? task = some record) :
    record.IsBusy ∧ record.nextRunAt ≤ before.agenda.reading ∧
      ∃ error?, after.record? task = some (record.judged (record.schedule.verdict
        before.agenda.policy record.nextRunAt before.agenda.reading error?)).1 := by
  obtain ⟨-, hfits⟩ := hsound.custody.fitsAt_of_mem hsettling.mem_running
  obtain @⟨job, error?, hjob, hstage, rfl, hafter, -, -, -⟩ := hsettling
  have hplace : job.place = .running := by rw [Job.place, hstage]
  obtain ⟨hbusy, -⟩ := hfits.holds hrecord
  obtain ⟨hdueAt, hnow⟩ := hpunctual.job job hjob hplace
  rw [dueOf_eq_nextRunAt hrecord] at hdueAt
  rw [hdueAt] at hnow hafter
  exact ⟨hbusy, hnow, error?, hafter record hrecord⟩

end Scheduler

end TimedTasks
