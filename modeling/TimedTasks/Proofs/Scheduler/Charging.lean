import TimedTasks.Proofs.Scheduler.Answering

/-!
# What is counted against a task

A failure is counted against a task in two places: when its body ends with an error, and when the
run is settled and the next one cannot be given a due time.  Whoever observes failures is told of
both when the run is settled.

A step is a matter of one run at most, and `Episode` says what it is to the run of a given task: the
run begins, its body ends, it is settled, or nothing becomes of it.  The record of the task is of
interest only as far as it tells of its runs (`Account`).
-/

namespace TimedTasks

/-! ## Accounts -/

/-- What the record of a task says of its runs. -/
structure Account where
  mode : TaskMode := .oneShot
  runs : Nat := 0
  failures : Nat := 0
  lastError? : Option TaskError := none

namespace Account

/-- There has not been a run yet. -/
structure IsBlank (account : Account) : Prop where
  runs_eq : account.runs = 0
  failures_eq : account.failures = 0
  lastError?_eq : account.lastError? = none

/-- Another run has begun. -/
def begun (account : Account) : Account := { account with runs := account.runs + 1 }

/-- An error has been counted, if there is one. -/
def charged (account : Account) : Option TaskError → Account
  | none => account
  | some error => { account with failures := account.failures + 1, lastError? := some error }

/-- The failure of the last run with an error. -/
def failure (account : Account) (task : TaskId) (error : TaskError) : Failure :=
  ⟨task, account.mode, account.runs, error⟩

@[simp] theorem charged_mode (account : Account) (error? : Option TaskError) :
    (account.charged error?).mode = account.mode := by
  cases error? <;> rfl

@[simp] theorem charged_runs (account : Account) (error? : Option TaskError) :
    (account.charged error?).runs = account.runs := by
  cases error? <;> rfl

theorem charged_failures (account : Account) (error? : Option TaskError) :
    (account.charged error?).failures = account.failures + error?.toList.length := by
  cases error? <;> rfl

theorem charged_lastError? (account : Account) (error? : Option TaskError) :
    (account.charged error?).lastError? = error?.or account.lastError? := by
  cases error? <;> rfl

theorem counts_eq {before after : Account}
    (hsame : after = before ∨ before.IsBlank ∧ after.IsBlank) :
    after.runs = before.runs ∧ after.failures = before.failures ∧
      after.lastError? = before.lastError? := by
  rcases hsame with rfl | ⟨hbefore, hafter⟩
  · exact ⟨rfl, rfl, rfl⟩
  · exact ⟨hafter.runs_eq.trans hbefore.runs_eq.symm,
      hafter.failures_eq.trans hbefore.failures_eq.symm,
      hafter.lastError?_eq.trans hbefore.lastError?_eq.symm⟩

@[simp] theorem charged_failure (account : Account) (error? : Option TaskError) (task : TaskId) :
    (account.charged error?).failure task = account.failure task := by
  cases error? <;> rfl

end Account

/-- Why a task is given up, if it is. -/
def Verdict.reason? : Verdict → Option TaskError
  | .giveUp error => some error
  | .finish _ | .rearm _ => none

namespace Record

variable {α : Type}

def account (record : Record α) : Account :=
  { mode := record.mode, runs := record.runs, failures := record.failures
    lastError? := record.lastError? }

theorem account_enter (record : Record α) : record.enter.1.account = record.account.begun := by
  obtain ⟨bodySpent, henter⟩ := record.enter_fst
  rw [henter]
  rfl

theorem account_leave (record : Record α) (ending : Ending α) :
    (record.leave ending).account = record.account.charged ending.error? := by
  unfold leave
  split
  · cases ending <;> rfl
  · cases ending <;> rfl

theorem account_judged (record : Record α) (verdict : Verdict) :
    (record.judged verdict).1.account = record.account.charged verdict.reason? := by
  by_cases hrunning : record.state = .running
  · rw [judged_eq_of_running hrunning]
    cases verdict <;> rfl
  · rw [judged_eq_of_not_running hrunning]
    cases verdict <;> rfl

end Record

/-! ## Reports -/

/-- The failure of a task that an event reports. -/
def Event.report? (task : TaskId) : Event → Option Failure
  | .reported failure => if failure.task = task then some failure else none
  | .entered .. | .submitted .. => none

namespace Agenda

variable {α : Type}

/-- The failures of a task that have been reported, the oldest first. -/
def reports (agenda : Agenda α) (task : TaskId) : List Failure :=
  (agenda.history.filterMap (Event.report? task)).reverse

theorem reports_note (agenda : Agenda α) (event : Event) (task : TaskId) :
    (agenda.note event).reports task = agenda.reports task ++ (event.report? task).toList := by
  simp only [reports, note, List.filterMap_cons]
  cases event.report? task with
  | none => rw [Option.toList_none, List.append_nil]
  | some failure => rw [Option.toList_some, List.reverse_cons]

/-- An observer is told of a failure with the number of the run and the mode of the task. -/
theorem reports_report {agenda : Agenda α} {moved : TaskId} {record : Record α}
    (hrecord : agenda.records[moved]? = some record) (error : TaskError) (task : TaskId) :
    (agenda.report moved error).reports task = agenda.reports task ++
      if agenda.observer?.isSome ∧ moved = task then [record.account.failure moved error]
      else [] := by
  unfold report
  rw [hrecord]
  cases agenda.observer? with
  | none => simp
  | some observer =>
      refine (reports_note ..).trans (congrArg (agenda.reports task ++ ·) ?_)
      by_cases htask : moved = task
      · simp [Event.report?, htask, Account.failure, Record.account]
      · simp [Event.report?, htask]

theorem observer?_report (agenda : Agenda α) (task : TaskId) (error : TaskError) :
    (agenda.report task error).observer? = agenda.observer? := by
  unfold report
  split <;> rfl

theorem observer?_account (agenda : Agenda α) (job : Job α) (completedAt : Moment)
    (error? : Option TaskError) :
    (agenda.account job completedAt error?).observer? = agenda.observer? := by
  unfold account
  split
  · rfl
  · cases error? with
    | none => rfl
    | some error => exact observer?_report ..

theorem observer?_attempt (agenda : Agenda α) (task : TaskId)
    (move : Record α → Option (Record α)) :
    (agenda.attempt task move).1.observer? = agenda.observer? := by
  unfold attempt
  split <;> rfl

theorem observer?_carryOut (agenda : Agenda α) (task : TaskId) (verdict : Verdict) :
    (agenda.carryOut task verdict).1.observer? = agenda.observer? := by
  cases verdict with
  | giveUp error => exact (observer?_attempt ..).trans (observer?_report ..)
  | finish outcome => exact observer?_attempt ..
  | rearm next =>
      simp only [carryOut, rearm]
      split <;> rfl

theorem observer?_settle (agenda : Agenda α) (job : Job α) (completedAt : Moment)
    (error? : Option TaskError) :
    (agenda.settle job completedAt error?).1.observer? = agenda.observer? := by
  unfold settle
  split
  · rfl
  · exact (observer?_carryOut ..).trans (observer?_account ..)

/-- The error with which the body has ended is reported when the run is counted. -/
theorem reports_account {agenda : Agenda α} {job : Job α} {record : Record α}
    (hrecord : agenda.records[job.task]? = some record) (completedAt : Moment)
    (error? : Option TaskError) (task : TaskId) :
    (agenda.account job completedAt error?).reports task = agenda.reports task ++
      if agenda.observer?.isSome ∧ job.task = task then
        error?.toList.map (record.account.failure job.task)
      else [] := by
  simp only [account, hrecord]
  generalize agenda.metrics.recordRun _ _ _ = metrics
  have hcounted : ({ agenda with metrics } : Agenda α).records[job.task]? = some record := hrecord
  cases error? with
  | none => simp [reports]
  | some error => exact reports_report hcounted error task

theorem reports_attempt (agenda : Agenda α) (moved : TaskId)
    (move : Record α → Option (Record α)) (task : TaskId) :
    (agenda.attempt moved move).1.reports task = agenda.reports task := by
  unfold attempt
  split <;> rfl

/-- The reason for which a task is given up is reported when that is done. -/
theorem reports_carryOut {agenda : Agenda α} {moved : TaskId} {record : Record α}
    (hrecord : agenda.records[moved]? = some record) (verdict : Verdict) (task : TaskId) :
    (agenda.carryOut moved verdict).1.reports task = agenda.reports task ++
      if agenda.observer?.isSome ∧ moved = task then
        verdict.reason?.toList.map (record.account.failure moved)
      else [] := by
  cases verdict with
  | giveUp error =>
      have hnoted : (agenda.noteFailure moved error).records[moved]? =
          some (record.noteFailure error) :=
        (records_update hrecord _ moved).trans (if_pos rfl)
      exact (reports_attempt ..).trans (reports_report hnoted error task)
  | finish outcome =>
      refine (reports_attempt ..).trans ?_
      simp [Verdict.reason?]
  | rearm next => simp [carryOut, rearm, hrecord, Verdict.reason?, reports]

theorem reports_settle {agenda after : Agenda α} {job : Job α} {record : Record α}
    {completedAt : Moment} {error? : Option TaskError} {again : Bool}
    (hrecord : agenda.records[job.task]? = some record)
    (hsettle : agenda.settle job completedAt error? = (after, again)) (task : TaskId) :
    after.reports task = agenda.reports task ++
      if agenda.observer?.isSome ∧ job.task = task then
        (error?.toList ++ (record.schedule.verdict agenda.policy job.dueAt completedAt
          error?).reason?.toList).map (record.account.failure job.task)
      else [] := by
  obtain rfl : (agenda.settle job completedAt error?).1 = after := congrArg Prod.fst hsettle
  have hcounted : (agenda.account job completedAt error?).records[job.task]? = some record := by
    rw [records_account, hrecord]
  simp only [settle, hrecord]
  rw [reports_carryOut hcounted, reports_account hrecord, observer?_account, List.append_assoc,
    List.map_append]
  congr 1
  split <;> rfl

end Agenda

/-- The task of a job and how far its run has come, if it has not been settled. -/
def Job.phase? {α : Type} (job : Job α) : Option (TaskId × Stage α) :=
  if job.place = .running then some (job.task, job.stage) else none

/-- The task of a lost run and how far it has come, if its body has been entered. -/
def LostRun.phase? {α : Type} : LostRun → Option (TaskId × Stage α)
  | .unentered _ => none
  | .uncounted task error? => some (task, .left error?)

namespace Scheduler

variable {α : Type} {origin before after scheduler : Scheduler α} {action : Action α}
variable {config : Config} {cores : Nat} {past : List (Scheduler α × Action α)} {task : TaskId}

/-! ## Charges -/

/-- What is known of the runs of a task; nothing, if there is no such task. -/
def account (scheduler : Scheduler α) (task : TaskId) : Account :=
  ((scheduler.record? task).map Record.account).getD {}

theorem account_eq {record : Record α} (hrecord : scheduler.record? task = some record) :
    scheduler.account task = record.account := by
  rw [account, hrecord]
  rfl

theorem account_congr {other : Scheduler α} (hsame : other.record? task = scheduler.record? task) :
    other.account task = scheduler.account task := by
  rw [account, account, hsame]

/-- The failure that has been counted against a task between two states. -/
def charge? (before after : Scheduler α) (task : TaskId) : Option Failure :=
  if (before.account task).failures < (after.account task).failures then
    (after.account task).lastError?.map ((after.account task).failure task)
  else none

/-- The failures that have been counted against a task, the oldest first. -/
def charges : List (Scheduler α × Action α) → Scheduler α → TaskId → List Failure
  | [], _, _ => []
  | (before, _) :: past, scheduler, task =>
      charges past before task ++ (charge? before scheduler task).toList

theorem charges_of_eq
    (hfailures : (after.account task).failures = (before.account task).failures) :
    charges ((before, action) :: past) after task = charges past before task := by
  have hnone : charge? before after task = none :=
    if_neg (by rw [hfailures]; exact Nat.lt_irrefl _)
  rw [charges, hnone, Option.toList_none, List.append_nil]

theorem charges_of_charged {error? : Option TaskError}
    (haccount : after.account task = (before.account task).charged error?) :
    charges ((before, action) :: past) after task =
      charges past before task ++ error?.toList.map ((before.account task).failure task) := by
  cases error? with
  | none =>
      rw [charges_of_eq (congrArg Account.failures haccount), Option.toList_none, List.map_nil,
        List.append_nil]
  | some error =>
      have hsome : charge? before after task = some ((before.account task).failure task error) := by
        rw [charge?, haccount, Account.charged_failure]
        exact if_pos (Nat.lt_succ_self _)
      rw [charges, hsome]
      rfl

/-- The task whose run is settled with an action, the error with which its body has ended, if it
has, and the verdict on the run. -/
def settles? (scheduler : Scheduler α) :
    Action α → Option (TaskId × Option TaskError × Verdict)
  | .work worker =>
    match scheduler.jobs.find? fun job => job.worker == worker with
    | some job =>
      match job.stage, scheduler.record? job.task with
      | .left error?, some record =>
        if scheduler.agenda.clock.isReadable then
          some (job.task, error?, record.schedule.verdict scheduler.agenda.policy job.dueAt
            scheduler.agenda.reading error?)
        else none
      | _, _ => none
    | none => none
  | _ => none

theorem settles?_of_unreadable (hunreadable : scheduler.agenda.clock.isReadable = false)
    (action : Action α) : scheduler.settles? action = none := by
  unfold settles?
  split
  · split
    · split
      · rw [hunreadable]
        rfl
      · rfl
    · rfl
  · rfl

/-! ## Runs in progress -/

/-- How far the runs have come that have been entered and not settled.  A lost run stays where it
was when nobody went on with it. -/
def phases (scheduler : Scheduler α) : List (TaskId × Stage α) :=
  scheduler.jobs.filterMap Job.phase? ++ scheduler.lost.filterMap LostRun.phase?

/-- How far the run of a task has come that has been entered and not settled, if there is one. -/
def phase? (scheduler : Scheduler α) (task : TaskId) : Option (Stage α) :=
  scheduler.phases.lookup task

theorem mem_phases {stage : Stage α} : (task, stage) ∈ scheduler.phases ↔
    (∃ job ∈ scheduler.jobs, job.place = .running ∧ job.task = task ∧ job.stage = stage) ∨
      ∃ error?, .uncounted task error? ∈ scheduler.lost ∧ .left error? = stage := by
  rw [phases, List.mem_append, List.mem_filterMap, List.mem_filterMap]
  refine or_congr (exists_congr fun job => and_congr_right fun _ => ?_) ?_
  · simp [Job.phase?]
  · constructor
    · rintro ⟨run, hrun, hphase⟩
      cases run with
      | unentered => simp [LostRun.phase?] at hphase
      | uncounted =>
          obtain ⟨rfl, rfl⟩ := Prod.mk.inj (Option.some.inj hphase)
          exact ⟨_, hrun, rfl⟩
    · rintro ⟨error?, hrun, rfl⟩
      exact ⟨_, hrun, rfl⟩

theorem keys_phases (scheduler : Scheduler α) :
    scheduler.phases.map Prod.fst = scheduler.tasksAt .running ++ scheduler.uncounted := by
  have hjobs : scheduler.jobs.filterMap (fun job => job.phase?.map Prod.fst) =
      scheduler.jobs.flatMap (Job.tasksAt .running) := by
    rw [List.filterMap_eq_flatMap_toList]
    refine List.flatMap_congr fun job _ => ?_
    unfold Job.phase? Job.tasksAt
    split <;> rfl
  have hlost : scheduler.lost.filterMap
      (fun run => (run.phase? : Option (TaskId × Stage α)).map Prod.fst) =
      scheduler.uncounted := by
    refine List.filterMap_congr fun run _ => ?_
    cases run <;> rfl
  rw [phases, List.map_append, List.map_filterMap, List.map_filterMap, hjobs, hlost]
  rfl

theorem phase?_eq_none (hnone : scheduler.inProgress task = 0) :
    scheduler.phase? task = none := by
  have hkeys : task ∉ scheduler.phases.map Prod.fst := by
    rw [keys_phases, ← List.count_eq_zero, List.count_append]
    exact hnone
  rw [phase?, List.lookup_eq_none_iff]
  intro phase hphase
  have hne : task ≠ phase.1 := fun htask => hkeys (List.mem_map.mpr ⟨phase, hphase, htask.symm⟩)
  simpa using hne

/-- A task has one run at a time. -/
theorem Sound.phase?_eq_some_iff (hsound : scheduler.Sound) {stage : Stage α} :
    scheduler.phase? task = some stage ↔ (task, stage) ∈ scheduler.phases := by
  have hnodup : (scheduler.phases.map Prod.fst).Nodup := by
    rw [keys_phases, List.nodup_iff_count_le_one]
    intro task
    rw [List.count_append]
    exact hsound.custody.inProgress_le_one task
  unfold phase?
  constructor
  · intro hlookup
    obtain ⟨earlier, later, hphases, -⟩ := List.lookup_eq_some_iff.mp hlookup
    rw [hphases]
    exact List.mem_append_right _ (List.mem_cons_self ..)
  · intro hmem
    cases hlookup : scheduler.phases.lookup task with
    | none => simpa using List.lookup_eq_none_iff.mp hlookup _ hmem
    | some other =>
        obtain ⟨earlier, later, hphases, -⟩ := List.lookup_eq_some_iff.mp hlookup
        have hother : (task, other) ∈ scheduler.phases :=
          hphases ▸ List.mem_append_right _ (List.mem_cons_self ..)
        exact congrArg (fun phase : TaskId × Stage α => some phase.2)
          (List.inj_on_of_nodup_map hnodup hother hmem rfl)

theorem Sound.phase?_eq (hsound : scheduler.Sound) {job : Job α} (hjob : job ∈ scheduler.jobs)
    (hplace : job.place = .running) : scheduler.phase? job.task = some job.stage :=
  hsound.phase?_eq_some_iff.mpr (mem_phases.mpr (Or.inl ⟨job, hjob, hplace, rfl, rfl⟩))

theorem Sound.phase?_congr (hbefore : before.Sound) (hafter : after.Sound)
    (hsame : ∀ stage, (task, stage) ∈ after.phases ↔ (task, stage) ∈ before.phases) :
    after.phase? task = before.phase? task := by
  refine Option.ext fun stage => ?_
  rw [hafter.phase?_eq_some_iff, hbefore.phase?_eq_some_iff]
  exact hsame stage

/-- The same runs of a task are in progress if workers are at the same ones, and no more have been
lost. -/
theorem mem_phases_congr (hlost : after.lost = before.lost)
    (hrunning : ∀ job : Job α, job.task = task → job.place = .running →
      (job ∈ after.jobs ↔ job ∈ before.jobs)) (stage : Stage α) :
    (task, stage) ∈ after.phases ↔ (task, stage) ∈ before.phases := by
  rw [mem_phases, mem_phases, hlost]
  refine or_congr_left (exists_congr fun job => ?_)
  rw [and_comm, and_comm (a := job ∈ before.jobs)]
  exact and_congr_right fun hjob => hrunning job hjob.2.1 hjob.1

/-! ## Moves that are a matter of no run -/

/-- Nothing becomes of any run. -/
structure Uneventful (before after : Scheduler α) : Prop where
  record : ∀ task record, before.record? task = some record →
    ∃ later, after.record? task = some later ∧ later.account = record.account
  blank : ∀ task, before.record? task = none → (after.account task).IsBlank
  reports : ∀ task, after.agenda.reports task = before.agenda.reports task
  phases : ∀ task stage, (task, stage) ∈ after.phases ↔ (task, stage) ∈ before.phases

theorem isBlank_of_none (hnone : scheduler.record? task = none) :
    (scheduler.account task).IsBlank := by
  rw [account, hnone]
  exact ⟨rfl, rfl, rfl⟩

namespace Uneventful

theorem account_eq (hquiet : Uneventful before after) {record : Record α}
    (hrecord : before.record? task = some record) : after.account task = before.account task := by
  obtain ⟨later, hlater, hsame⟩ := hquiet.record task record hrecord
  rw [Scheduler.account_eq hlater, Scheduler.account_eq hrecord, hsame]

theorem trans {middle : Scheduler α} (hfirst : Uneventful before middle)
    (hsecond : Uneventful middle after) : Uneventful before after where
  record := by
    intro task record hrecord
    obtain ⟨found, hfound, hsame⟩ := hfirst.record task record hrecord
    obtain ⟨later, hlater, hagain⟩ := hsecond.record task found hfound
    exact ⟨later, hlater, hagain.trans hsame⟩
  blank := by
    intro task hnone
    cases hmiddle : middle.record? task with
    | none => exact hsecond.blank task hmiddle
    | some record => exact hsecond.account_eq hmiddle ▸ hfirst.blank task hnone
  reports := fun task => (hsecond.reports task).trans (hfirst.reports task)
  phases := fun task stage => (hsecond.phases task stage).trans (hfirst.phases task stage)

theorem of_records (hrecords : after.agenda.records = before.agenda.records)
    (hreports : ∀ task, after.agenda.reports task = before.agenda.reports task)
    (hphases : ∀ task stage, (task, stage) ∈ after.phases ↔ (task, stage) ∈ before.phases) :
    Uneventful before after where
  record := fun task record hrecord =>
    ⟨record, (congrArg (·[task]?) hrecords).trans hrecord, rfl⟩
  blank := fun task hnone => isBlank_of_none ((congrArg (·[task]?) hrecords).trans hnone)
  reports := hreports
  phases := hphases

theorem of_same (hrecords : after.agenda.records = before.agenda.records)
    (hhistory : after.agenda.history = before.agenda.history)
    (hphases : ∀ task stage, (task, stage) ∈ after.phases ↔ (task, stage) ∈ before.phases) :
    Uneventful before after :=
  .of_records hrecords (fun _ => by rw [Agenda.reports, hhistory]; rfl) hphases

theorem refl (before : Scheduler α) : Uneventful before before :=
  .of_same rfl rfl fun _ _ => .rfl

theorem of_state {moved : TaskId} {record : Record α} {state : TaskState}
    (hrecord : before.record? moved = some record)
    (hrecords : after.agenda.records =
      before.agenda.records.setIfInBounds moved { record with state })
    (hhistory : after.agenda.history = before.agenda.history)
    (hphases : ∀ task stage, (task, stage) ∈ after.phases ↔ (task, stage) ∈ before.phases) :
    Uneventful before after := by
  have hafter : ∀ task, after.record? task =
      if task = moved then some { record with state } else before.record? task := fun task =>
    (congrArg (·[task]?) hrecords).trans (record?_withRecord hrecord _ task)
  refine ⟨fun task found hfound => ?_, fun task hnone => isBlank_of_none ?_,
    fun _ => by rw [Agenda.reports, hhistory]; rfl, hphases⟩
  · by_cases htask : task = moved
    · subst htask
      obtain rfl := Option.some.inj (hrecord.symm.trans hfound)
      exact ⟨_, (hafter task).trans (if_pos rfl), rfl⟩
    · exact ⟨found, (hafter task).trans ((if_neg htask).trans hfound), rfl⟩
  · refine (hafter task).trans ((if_neg ?_).trans hnone)
    rintro rfl
    exact absurd (hnone.symm.trans hrecord) (by simp)

/-- A record is added. -/
theorem of_draft {submission : Submission α} {due : Moment}
    (hrecords : after.agenda.records = (before.draft submission due).1.agenda.records)
    (hreports : ∀ task, after.agenda.reports task = before.agenda.reports task)
    (hphases : ∀ task stage, (task, stage) ∈ after.phases ↔ (task, stage) ∈ before.phases) :
    Uneventful before after := by
  have hafter : ∀ task, after.record? task =
      if task = before.agenda.records.size then some (submission.record due)
      else before.record? task := fun task =>
    (congrArg (·[task]?) hrecords).trans (record?_draft submission due task)
  refine ⟨fun task record hrecord => ⟨record, (hafter task).trans ((if_neg ?_).trans hrecord), rfl⟩,
    fun task hnone => ?_, hreports, hphases⟩
  · rintro rfl
    exact absurd (before.record?_size.symm.trans hrecord) (by simp)
  · by_cases hnew : task = before.agenda.records.size
    · rw [Scheduler.account_eq ((hafter task).trans (if_pos hnew))]
      exact ⟨rfl, rfl, rfl⟩
    · exact isBlank_of_none ((hafter task).trans ((if_neg hnew).trans hnone))

end Uneventful

theorem Staffed.mem_release_iff (hstaffed : before.Staffed) {job other : Job α}
    (hjob : job ∈ before.jobs) :
    other ∈ (before.release job.worker).jobs ↔ other ∈ before.jobs ∧ other ≠ job := by
  simp only [release, List.mem_filter, bne_iff_ne]
  refine and_congr_right fun hother => not_congr ⟨fun hworker => ?_, fun hsame => by rw [hsame]⟩
  exact List.inj_on_of_nodup_map hstaffed hother hjob hworker

theorem Staffed.mem_goOnWith_iff (hstaffed : before.Staffed) {job other : Job α} {stage : Stage α}
    (hjob : job ∈ before.jobs) :
    other ∈ (before.goOnWith job stage).jobs ↔
      other = { job with stage } ∨ other ∈ before.jobs ∧ other ≠ job := by
  simp only [goOnWith, List.mem_map]
  constructor
  · rintro ⟨found, hfound, rfl⟩
    split
    · exact Or.inl rfl
    · rename_i hworker
      exact Or.inr ⟨hfound, fun hsame => hworker (by rw [hsame])⟩
  · rintro (rfl | ⟨hother, hne⟩)
    · exact ⟨job, hjob, if_pos rfl⟩
    · refine ⟨other, hother, if_neg fun hworker => hne ?_⟩
      exact List.inj_on_of_nodup_map hstaffed hother hjob hworker

theorem Staffed.mem_goOnWith_of_ne (hstaffed : before.Staffed) {job other : Job α}
    {stage : Stage α} (hjob : job ∈ before.jobs) (htask : other.task ≠ job.task) :
    other ∈ (before.goOnWith job stage).jobs ↔ other ∈ before.jobs := by
  rw [hstaffed.mem_goOnWith_iff hjob]
  constructor
  · rintro (rfl | ⟨hold, -⟩)
    · exact absurd rfl htask
    · exact hold
  · exact fun hold => Or.inr ⟨hold, fun hsame => htask (congrArg Job.task hsame)⟩

theorem Staffed.phases_release (hstaffed : before.Staffed) {job : Job α}
    (hjob : job ∈ before.jobs) (hplace : job.place = .returning) (task : TaskId)
    (stage : Stage α) :
    (task, stage) ∈ (before.release job.worker).phases ↔ (task, stage) ∈ before.phases := by
  have hlost : (before.release job.worker).lost = before.lost := rfl
  refine mem_phases_congr hlost (fun other _ hother => ?_) stage
  rw [hstaffed.mem_release_iff hjob, and_iff_left]
  rintro rfl
  exact absurd (hplace.symm.trans hother) (by decide)

/-- A run that is lost does not come any further. -/
theorem Staffed.phases_lost (hstaffed : before.Staffed) {job : Job α} {error? : Option TaskError}
    (hjob : job ∈ before.jobs) (hstage : job.stage = .left error?) (task : TaskId)
    (stage : Stage α) :
    (task, stage) ∈ (Scheduler.release
        { before with lost := .uncounted job.task error? :: before.lost } job.worker).phases ↔
      (task, stage) ∈ before.phases := by
  have hplace : job.place = .running := by rw [Job.place, hstage]
  rw [mem_phases, mem_phases]
  constructor
  · rintro (⟨other, hother, hrunning⟩ | ⟨found?, hfound, rfl⟩)
    · exact Or.inl ⟨other, ((hstaffed.mem_release_iff hjob).mp hother).1, hrunning⟩
    · rcases List.mem_cons.mp hfound with hnew | hold
      · obtain ⟨rfl, rfl⟩ := LostRun.uncounted.inj hnew
        exact Or.inl ⟨job, hjob, hplace, rfl, hstage⟩
      · exact Or.inr ⟨found?, hold, rfl⟩
  · rintro (⟨other, hother, hrunning, rfl, rfl⟩ | ⟨found?, hfound, rfl⟩)
    · by_cases hsame : other = job
      · subst hsame
        exact Or.inr ⟨error?, List.mem_cons_self .., hstage.symm⟩
      · exact Or.inl
          ⟨other, (hstaffed.mem_release_iff hjob).mpr ⟨hother, hsame⟩, hrunning, rfl, rfl⟩
    · exact Or.inr ⟨found?, List.mem_cons_of_mem _ hfound, rfl⟩

theorem Staffed.phases_goOnWith (hstaffed : before.Staffed) {job : Job α} {next : Stage α}
    (hjob : job ∈ before.jobs) (hplace : job.place = .returning)
    (hnext : Job.place { job with stage := next } = .returning) (task : TaskId)
    (stage : Stage α) :
    (task, stage) ∈ (before.goOnWith job next).phases ↔ (task, stage) ∈ before.phases := by
  have hlost : (before.goOnWith job next).lost = before.lost := rfl
  refine mem_phases_congr hlost (fun other _ hother => ?_) stage
  rw [hstaffed.mem_goOnWith_iff hjob]
  constructor
  · rintro (rfl | ⟨hold, -⟩)
    · exact absurd (hnext.symm.trans hother) (by decide)
    · exact hold
  · intro hold
    refine Or.inr ⟨hold, ?_⟩
    rintro rfl
    exact absurd (hplace.symm.trans hother) (by decide)

/-- Unless a body is entered or ends or a run is settled, a move is a matter of no run. -/
theorem Move.uneventful (hmove : Move origin action before after) (hsound : before.Sound)
    (hscripted : before.Scripted) (henters : ∀ position, action ≠ .takeUp position)
    (hends : origin.ends? action = none) (hcompletes : origin.completes? action = none) :
    Uneventful before after := by
  have hstaffed := hsound.staffed
  cases hmove with
  | drafted | submittedInVain => exact .of_draft rfl (fun _ => rfl) fun _ _ => .rfl
  | submitted => exact .of_draft rfl (fun _ => rfl) fun _ _ => .rfl
  | cancelBegun _ hrecord | cancelledInBody _ hrecord | swept _ hrecord =>
      exact .of_state hrecord rfl rfl fun _ _ => .rfl
  | started _ _ hrecord => exact .of_state hrecord rfl rfl fun _ _ => .rfl
  | tookUp _ _ hcause => exact absurd hcause (henters _)
  | lostUncounted hjob hstage =>
      exact .of_same rfl rfl (hstaffed.phases_lost hjob hstage)
  | @skipped job hjob hstage =>
      obtain ⟨_, -, hnone⟩ := hscripted job hjob none hstage
      simp at hnone
  | ended _ _ _ hcause => exact absurd (hends.symm.trans hcause) (by simp)
  | settled _ _ _ hcause | rearmed _ _ _ hcause =>
      obtain ⟨rfl, hsome⟩ := hcause
      exact absurd (hcompletes.symm.trans hsome) (by simp)
  | @requeued job hjob hstage | @letGo job hjob hstage =>
      exact .of_records rfl (fun _ => rfl)
        (hstaffed.phases_release hjob (by rw [Job.place, hstage]))
  | @requeueRefused job hjob hstage =>
      exact .of_records rfl (fun _ => rfl)
        (hstaffed.phases_goOnWith hjob (by rw [Job.place, hstage]) rfl)
  | @dropped job record hjob hstage hrecord =>
      exact .of_state hrecord rfl rfl
        (hstaffed.phases_release hjob (by rw [Job.place, hstage]))
  | noted name result =>
      exact .of_records rfl
        (fun _ => (Agenda.reports_note ..).trans (List.append_nil _)) fun _ _ => .rfl
  | _ => exact .of_same rfl rfl fun _ _ => .rfl

/-- What a body does before it ends is a matter of no run. -/
theorem uneventful_perform (before : Scheduler α) (turn : Turn α) :
    Uneventful before (before.perform turn).1 := by
  -- A body moves the clock, cancels and submits, and none of this is an event for any run.
  refine perform_induction turn (.refl before) (fun agenda hpass => ?_)
    (fun state task hquiet => hquiet.trans ?_)
    fun state next submission name result hquiet hsubmit => hquiet.trans ?_
  · cases hmove : turn.advance? with
    | none =>
        rw [hmove] at hpass
        obtain rfl := Except.ok.inj hpass
        exact .refl before
    | some move =>
        rw [hmove] at hpass
        obtain ⟨clock, -, rfl⟩ := Agenda.advance_eq_ok hpass
        exact .of_same rfl rfl fun _ _ => .rfl
  · rcases state.cancelNow_cases task with hsame | ⟨record, hrecord, -, hcancelled⟩
    · rw [hsame]
      exact .refl state
    · rw [hcancelled]
      exact .of_state hrecord rfl rfl fun _ _ => .rfl
  · have hnote : ∀ agenda : Agenda α, ∀ task,
        (agenda.note (.submitted name result)).reports task = agenda.reports task :=
      fun _ _ => (Agenda.reports_note ..).trans (List.append_nil _)
    unfold submitNow at hsubmit
    split at hsubmit
    · simp at hsubmit
    · obtain ⟨rfl, -⟩ := Prod.mk.inj (Except.ok.inj hsubmit)
      exact .of_records rfl (hnote _) fun _ _ => .rfl
    · dsimp only at hsubmit
      split at hsubmit
      · obtain ⟨rfl, -⟩ := Prod.mk.inj (Except.ok.inj hsubmit)
        exact .of_draft rfl (hnote _) fun _ _ => .rfl
      · rename_i agenda hok
        obtain ⟨-, -, rfl⟩ := Agenda.tryInsert_eq_ok hok
        obtain ⟨rfl, -⟩ := Prod.mk.inj (Except.ok.inj hsubmit)
        exact .of_draft rfl (hnote _) fun _ _ => .rfl

/-! ## Steps -/

/-- What a step is to the run of a task. -/
inductive Episode (before : Scheduler α) (action : Action α) (task : TaskId)
    (after : Scheduler α) : Prop
  | begun {turn? : Option (Turn α)} (hends : before.ends? action = none)
      (hsettles : before.settles? action = none) (hbacklog : task ∈ before.backlog)
      (hbefore : before.phase? task = none)
      (hafter : after.phase? task = some (.inside turn?))
      (haccount : after.account task = (before.account task).begun)
      (hreports : after.agenda.reports task = before.agenda.reports task) :
      Episode before action task after
  | ended {turn? : Option (Turn α)} {ending : Ending α}
      (hends : before.ends? action = some (task, ending))
      (hsettles : before.settles? action = none)
      (hbefore : before.phase? task = some (.inside turn?))
      (hafter : after.phase? task = some (.left ending.error?))
      (haccount : after.account task = (before.account task).charged ending.error?)
      (hreports : after.agenda.reports task = before.agenda.reports task) :
      Episode before action task after
  | settled {error? : Option TaskError} {verdict : Verdict}
      (hends : before.ends? action = none)
      (hsettles : before.settles? action = some (task, error?, verdict))
      (hbefore : before.phase? task = some (.left error?))
      (hafter : after.phase? task = none)
      (haccount : after.account task = (before.account task).charged verdict.reason?)
      (hreports : after.agenda.reports task = before.agenda.reports task ++
        if before.agenda.observer?.isSome then
          (error?.toList ++ verdict.reason?.toList).map ((before.account task).failure task)
        else []) :
      Episode before action task after
  | quiet (hends : ∀ ending, before.ends? action ≠ some (task, ending))
      (hsettles : ∀ settlement, before.settles? action ≠ some (task, settlement))
      (hphase : after.phase? task = before.phase? task)
      (haccount : after.account task = before.account task ∨
        (before.account task).IsBlank ∧ (after.account task).IsBlank)
      (hreports : after.agenda.reports task = before.agenda.reports task) :
      Episode before action task after

theorem Uneventful.episode (hquiet : Uneventful before after) (hbefore : before.Sound)
    (hafter : after.Sound)
    (hends : ∀ ending, before.ends? action ≠ some (task, ending))
    (hsettles : ∀ settlement, before.settles? action ≠ some (task, settlement)) :
    Episode before action task after := by
  refine .quiet hends hsettles (hbefore.phase?_congr hafter (hquiet.phases task)) ?_
    (hquiet.reports task)
  cases hrecord : before.record? task with
  | none => exact Or.inr ⟨isBlank_of_none hrecord, hquiet.blank task hrecord⟩
  | some record => exact Or.inl (hquiet.account_eq hrecord)

/-- A run that is lost before its body is entered leaves no account, and any other one enters. -/
theorem uneventful_or_enters {position : Nat}
    (hstep : before.step (.takeUp position) = some after) :
    Uneventful before after ∨ ∃ moved worker,
      before.backlog[position]? = some moved ∧
        after.agenda = (before.agenda.enter moved worker before.agenda.reading).1 ∧
        after.jobs = before.jobs ++ [(before.agenda.enter moved worker before.agenda.reading).2] ∧
        after.lost = before.lost := by
  simp only [step, takeUp] at hstep
  split at hstep
  · rename_i moved worker hmoved hworker
    split at hstep
    · obtain rfl := Option.some.inj hstep
      exact Or.inl (.of_same rfl rfl fun _ _ => .rfl)
    · rename_i startedAt hnow
      obtain ⟨-, rfl⟩ := ManualClock.now_eq_ok.mp hnow
      obtain rfl := Option.some.inj hstep
      exact Or.inr ⟨moved, worker, hmoved, rfl, rfl, rfl⟩
  · simp at hstep

/-- A worker takes up a task. -/
theorem episode_takeUp (hbefore : before.Sound) (hafter : after.Sound) {position : Nat}
    (hstep : before.step (.takeUp position) = some after) :
    Episode before (.takeUp position) task after := by
  rcases uneventful_or_enters hstep with hquiet | ⟨moved, worker, hmoved, hagenda, hjobs, hlost⟩
  · exact hquiet.episode hbefore hafter (by simp [ends?]) (by simp [settles?])
  obtain ⟨record, run, turn, hrecord, hbody⟩ := hbefore.custody.exists_body hmoved
  have hbacklog : moved ∈ before.tasksAt .backlog := List.mem_of_getElem? hmoved
  rw [Agenda.enter_eq hrecord hbody worker] at hagenda hjobs
  have hreports : after.agenda.reports task = before.agenda.reports task := by
    rw [hagenda]
    exact (Agenda.reports_note ..).trans (List.append_nil _)
  have hrecords : ∀ other, after.record? other =
      if other = moved then some record.enter.1 else before.record? other := by
    intro other
    rw [record?, hagenda]
    exact Agenda.records_withRecord hrecord
  by_cases htask : task = moved
  · subst htask
    refine .begun rfl rfl hbacklog
      (phase?_eq_none (hbefore.custody.inProgress_eq_zero hbacklog (by decide) (by decide)))
      (hafter.phase?_eq (hjobs ▸ List.mem_append_right _ (List.mem_singleton_self _)) rfl) ?_
      hreports
    rw [account_eq ((hrecords task).trans (if_pos rfl)), account_eq hrecord, record.account_enter]
  · refine .quiet (by simp [ends?]) (by simp [settles?]) ?_ (Or.inl ?_) hreports
    · refine hbefore.phase?_congr hafter (mem_phases_congr hlost fun job hother _ => ?_)
      rw [hjobs, List.mem_append, or_iff_left]
      intro hnew
      rw [List.mem_singleton.mp hnew] at hother
      exact htask hother.symm
    · exact account_congr ((hrecords task).trans (if_neg htask))

/-- A body ends. -/
theorem episode_ended (hbefore : before.Sound) (hafter : after.Sound) {worker : Nat} {job : Job α}
    {turn : Turn α} (hfind : (before.jobs.find? fun job => job.worker == worker) = some job)
    (hstage : job.stage = .inside (some turn)) (hpasses : before.passesGate turn = true)
    (hstep : before.step (.work worker) = some after) :
    Episode before (.work worker) task after := by
  have hjob := List.mem_of_find?_eq_some hfind
  have hplace : job.place = .running := by rw [Job.place, hstage]
  have hends := ends?_of_inside hfind hstage hpasses
  have hsettles : before.settles? (.work worker) = none := by
    simp only [settles?, hfind, hstage]
  have hplays : before.Plays worker turn := ⟨job, hfind, hstage, hpasses⟩
  have hperformed := hbefore.of_moves (moves_perform hplays)
  have hmem : job ∈ (before.perform turn).1.jobs := (jobs_perform before turn).symm ▸ hjob
  have hquiet := before.uneventful_perform turn
  obtain ⟨record, hrecord⟩ := (hbefore.custody.fitsAt_of_mem (mem_tasksAt_place hjob)).exists_record
  obtain ⟨later, hlater, hsame⟩ := hquiet.record job.task record hrecord
  obtain ⟨hjobs, hlost, hrecords, hreports⟩ :
      after.jobs =
          ((before.perform turn).1.goOnWith job (.left (before.perform turn).2.error?)).jobs ∧
        after.lost = (before.perform turn).1.lost ∧
        (∀ other, after.record? other =
          if other = job.task then some (later.leave (before.perform turn).2)
          else (before.perform turn).1.record? other) ∧
        ∀ task, after.agenda.reports task = before.agenda.reports task := by
    simp only [step, hfind, work, hstage, hpasses, if_true] at hstep
    obtain rfl := Option.some.inj hstep
    exact ⟨rfl, rfl, Agenda.records_update hlater _, hquiet.reports⟩
  -- What the body has done before it ended was uneventful, also for its own task.
  by_cases htask : task = job.task
  · subst htask
    have hleft : { job with stage := .left (before.perform turn).2.error? } ∈ after.jobs :=
      hjobs ▸ List.mem_map.mpr ⟨job, hmem, if_pos rfl⟩
    refine .ended hends hsettles (hstage ▸ hbefore.phase?_eq hjob hplace)
      (hafter.phase?_eq hleft rfl) ?_ (hreports job.task)
    rw [account_eq ((hrecords job.task).trans (if_pos rfl)), account_eq hrecord, ← hsame,
      later.account_leave]
  · refine .quiet (by simp [hends, Ne.symm htask]) (by simp [hsettles]) ?_ ?_ (hreports task)
    · refine hbefore.phase?_congr hafter fun stage => Iff.trans ?_ (hquiet.phases task stage)
      refine mem_phases_congr hlost (fun other hother _ => ?_) stage
      rw [hjobs, hperformed.staffed.mem_goOnWith_of_ne hmem (hother.trans_ne htask)]
    · have hother : after.account task = (before.perform turn).1.account task :=
        account_congr ((hrecords task).trans (if_neg htask))
      rw [hother]
      cases hnone : before.record? task with
      | none => exact Or.inr ⟨isBlank_of_none hnone, hquiet.blank task hnone⟩
      | some found => exact Or.inl (hquiet.account_eq hnone)

/-- A run is settled. -/
theorem episode_settled (hbefore : before.Sound) (hafter : after.Sound) {worker : Nat}
    {job : Job α} {error? : Option TaskError}
    (hfind : (before.jobs.find? fun job => job.worker == worker) = some job)
    (hstage : job.stage = .left error?) (hreadable : before.agenda.clock.isReadable = true)
    (hstep : before.step (.work worker) = some after) :
    Episode before (.work worker) task after := by
  have hjob := List.mem_of_find?_eq_some hfind
  have hplace : job.place = .running := by rw [Job.place, hstage]
  obtain ⟨record, hrecord⟩ := (hbefore.custody.fitsAt_of_mem (mem_tasksAt_place hjob)).exists_record
  have hends : before.ends? (.work worker) = none := by simp only [ends?, hfind, hstage]
  have hsettles : before.settles? (.work worker) = some (job.task, error?,
      record.schedule.verdict before.agenda.policy job.dueAt before.agenda.reading error?) := by
    simp only [settles?, hfind, hstage, hrecord, hreadable, if_true]
  obtain ⟨again, hsettle, hlost, hjobs⟩ : ∃ again,
      before.agenda.settle job before.agenda.reading error? = (after.agenda, again) ∧
        after.lost = before.lost ∧ ∀ other : Job α, other.place = .running →
          (other ∈ after.jobs ↔ other ∈ before.jobs ∧ other ≠ job) := by
    simp only [step, hfind, work, hstage, Agenda.now_of_readable hreadable] at hstep
    split at hstep
    · rename_i agenda hsettle
      obtain rfl := Option.some.inj hstep
      refine ⟨true, hsettle, rfl, fun other hrunning => ?_⟩
      refine (hbefore.staffed.mem_goOnWith_iff hjob).trans (or_iff_right ?_)
      rintro rfl
      exact absurd hrunning (by simp [Job.place])
    · rename_i agenda hsettle
      obtain rfl := Option.some.inj hstep
      exact ⟨false, hsettle, rfl, fun other _ => hbefore.staffed.mem_release_iff hjob⟩
  have hreports := Agenda.reports_settle hrecord hsettle task
  obtain ⟨hrecords, -⟩ := Agenda.judged_of_settle hrecord hsettle
  -- For all tasks but that of the job nothing has happened.
  by_cases htask : task = job.task
  · subst htask
    have hbusy : before.phase? job.task = some (.left error?) :=
      hstage ▸ hbefore.phase?_eq hjob hplace
    refine .settled hends hsettles hbusy (phase?_eq_none (Nat.add_eq_zero_iff.mpr ⟨?_, ?_⟩)) ?_ ?_
    · refine List.count_eq_zero.mpr fun hmem => ?_
      obtain ⟨other, hother, hrunning, hsame⟩ := exists_job_of_running hmem
      obtain ⟨hold, hne⟩ := (hjobs other hrunning).mp hother
      exact hne (hbefore.job_unique hjob hold hplace hrunning hsame)
    · rw [uncounted, hlost]
      have hrunning : job.task ∈ before.tasksAt .running := hplace ▸ mem_tasksAt_place hjob
      have hhere : job.task ∉ before.tasksAt .lost :=
        hbefore.custody.not_mem_of_mem hrunning (by decide)
      exact count_uncounted_eq_zero hhere
    · rw [account_eq ((hrecords job.task).trans (if_pos rfl)), account_eq hrecord,
        record.account_judged]
    · simpa only [account_eq hrecord, and_true] using hreports
  · refine .quiet (by simp [hends]) (by simp [hsettles, Ne.symm htask]) ?_ (Or.inl ?_) ?_
    · refine hbefore.phase?_congr hafter (mem_phases_congr hlost fun other hother hrunning => ?_)
      rw [hjobs other hrunning, and_iff_left]
      rintro rfl
      exact htask hother.symm
    · exact account_congr ((hrecords task).trans (if_neg htask))
    · rw [hreports, if_neg fun hboth => htask hboth.2.symm, List.append_nil]

/-- A step is a matter of one run at most. -/
theorem Reachable.episode (hreachable : Reachable config cores before)
    (hstep : before.step action = some after) (task : TaskId) :
    Episode before action task after := by
  have hbefore := hreachable.sound
  have hafter := hbefore.of_step hstep
  have hquiet : (∀ position, action ≠ .takeUp position) → before.ends? action = none →
      before.completes? action = none → Uneventful before after := fun henters hends hcompletes =>
    (of_step (p := fun state => state.Scripted ∧ Uneventful before state) hbefore hstep
      ⟨hreachable.scripted, .refl before⟩ fun first second hfirst hboth hmove =>
        ⟨hmove.scripted hfirst hboth.1,
          hboth.2.trans (hmove.uneventful hfirst hboth.1 henters hends hcompletes)⟩).2
  cases action with
  | takeUp position => exact episode_takeUp hbefore hafter hstep
  | work worker =>
      cases hfind : before.jobs.find? fun job => job.worker == worker with
      | none => simp [Scheduler.step, hfind] at hstep
      | some job =>
          cases hstage : job.stage with
          | inside turn? =>
              obtain ⟨record, -, rfl⟩ :=
                hreachable.scripted job (List.mem_of_find?_eq_some hfind) turn? hstage
              cases hpasses : before.passesGate (record.script record.runs) with
              | true => exact episode_ended hbefore hafter hfind hstage hpasses hstep
              | false => simp [Scheduler.step, hfind, work, hstage, hpasses] at hstep
          | left error? =>
              cases hreadable : before.agenda.clock.isReadable with
              | true => exact episode_settled hbefore hafter hfind hstage hreadable hstep
              | false =>
                  have hnone := settles?_of_unreadable hreadable (.work worker)
                  refine Uneventful.episode (hquiet (by simp) ?_ ?_) hbefore hafter ?_ ?_
                  all_goals simp [ends?, completes?, hnone, hfind, hstage, hreadable]
          | rearmed | refused =>
              refine Uneventful.episode (hquiet (by simp) ?_ ?_) hbefore hafter ?_ ?_
              all_goals simp [ends?, completes?, settles?, hfind, hstage]
  | _ =>
      refine Uneventful.episode (hquiet (by simp) rfl rfl) hbefore hafter ?_ ?_
      all_goals simp [ends?, settles?]

end Scheduler

end TimedTasks
