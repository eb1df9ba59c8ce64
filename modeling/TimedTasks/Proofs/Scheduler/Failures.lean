import Mathlib.Data.List.Induction
import TimedTasks.Proofs.Scheduler.Charging
import TimedTasks.Proofs.Scheduler.Gap

/-!
# How many failures a run comes to

A run comes to one failure if its body ends with an error, and to another one if its task has to be
given up because the next due time cannot be represented.  The second can only happen once, and to
the last run of a task.  So what is counted against a task is known from how its bodies have ended
and from whether it has been given up (`Ledger`).

That a run comes to one failure at most is therefore true of all tasks but those that are given up
after a run whose body has failed (`FailsTwice`).  For these it is false whichever way one looks:
both failures are counted, both are reported if anybody observes, and the last error is not that of
the body (`Run.failures_once_per_run`).
-/

namespace TimedTasks

/-! ## Failures of bodies -/

section Faults

variable {α : Type} {task : TaskId} {mode : TaskMode}

/-- The failures of the bodies that have ended, each with the number of its run. -/
def faults (task : TaskId) (mode : TaskMode) (endings : List (Ending α)) : List Failure :=
  (endings.zipIdx 1).filterMap fun ended =>
    ended.1.error?.map fun error => ⟨task, mode, ended.2, error⟩

theorem faults_concat (endings : List (Ending α)) (ending : Ending α) :
    faults task mode (endings ++ [ending]) = faults task mode endings ++
      ending.error?.toList.map fun error => ⟨task, mode, endings.length + 1, error⟩ := by
  rw [faults, List.zipIdx_append, List.filterMap_append, faults, Nat.add_comm]
  cases herror : ending.error? <;> simp [herror]

theorem run_of_mem_faults {endings : List (Ending α)} {failure : Failure}
    (hmem : failure ∈ faults task mode endings) :
    1 ≤ failure.run ∧ failure.run ≤ endings.length ∧ failure.mode = mode := by
  induction endings using List.reverseRecOn with
  | nil => simp [faults] at hmem
  | append_singleton endings ending ih =>
      rw [faults_concat] at hmem
      rw [List.length_append, List.length_singleton]
      rcases List.mem_append.mp hmem with hold | hnew
      · obtain ⟨hone, hle, hmode⟩ := ih hold
        exact ⟨hone, Nat.le_succ_of_le hle, hmode⟩
      · obtain ⟨error, -, rfl⟩ := List.mem_map.mp hnew
        exact ⟨Nat.le_add_left .., Nat.le_refl _, rfl⟩

/-- Each body that fails has a run of its own. -/
theorem pairwise_faults (task : TaskId) (mode : TaskMode) (endings : List (Ending α)) :
    (faults task mode endings).Pairwise fun first second => first.run < second.run := by
  induction endings using List.reverseRecOn with
  | nil => exact .nil
  | append_singleton endings ending ih =>
      rw [faults_concat, List.pairwise_append]
      refine ⟨ih, ?_, fun first hfirst second hsecond => ?_⟩
      · cases ending.error? with
        | none => exact .nil
        | some error => exact List.pairwise_singleton ..
      · obtain ⟨-, hle, -⟩ := run_of_mem_faults hfirst
        obtain ⟨error, -, rfl⟩ := List.mem_map.mp hsecond
        exact Nat.lt_succ_of_le hle

theorem nodup_faults (task : TaskId) (mode : TaskMode) (endings : List (Ending α)) :
    ((faults task mode endings).map Failure.run).Nodup := by
  rw [List.Nodup, List.pairwise_map]
  exact (pairwise_faults task mode endings).imp fun hless => Nat.ne_of_lt hless

theorem length_faults (task : TaskId) (mode : TaskMode) (endings : List (Ending α)) :
    (faults task mode endings).length = endings.countP fun ending => ending.error?.isSome := by
  induction endings using List.reverseRecOn with
  | nil => rfl
  | append_singleton endings ending ih =>
      rw [faults_concat, List.length_append, ih, List.countP_append, List.countP_singleton,
        List.length_map]
      cases ending.error? <;> rfl

/-- Errors of a run that comes after all others. -/
theorem Account.nodup_runs_iff {account : Account} {earlier : List Failure}
    (hless : ∀ failure ∈ earlier, failure.run < account.runs) (errors : List TaskError) :
    ((earlier ++ errors.map (account.failure task)).map Failure.run).Nodup ↔
      (earlier.map Failure.run).Nodup ∧ errors.length ≤ 1 := by
  have hlast : (errors.map (account.failure task)).map Failure.run =
      List.replicate errors.length account.runs := by
    rw [List.map_map]
    exact List.map_const ..
  rw [List.map_append, List.nodup_append, hlast, List.nodup_replicate, ← and_assoc,
    and_iff_left_iff_imp]
  rintro - run hrun last hmem rfl
  obtain ⟨failure, hfailure, rfl⟩ := List.mem_map.mp hrun
  exact Nat.ne_of_lt (hless failure hfailure) (List.eq_of_mem_replicate hmem)

/-- A run that is given up does so because its next due time cannot be represented. -/
theorem Schedule.exists_period_of_giveUp {schedule : Schedule} {policy : FailurePolicy}
    {dueAt completedAt : Moment} {error? : Option TaskError} {reason : TaskError}
    (hverdict : schedule.verdict policy dueAt completedAt error? = .giveUp reason) :
    ∃ period, schedule.period? = some period ∧ reason = .outOfRange period := by
  have hafter : ∀ {base : Moment} {period : Span}, Schedule.after base period = .error reason →
      reason = .outOfRange period := by
    intro base period hafter
    unfold Schedule.after at hafter
    split at hafter
    · simp at hafter
    · exact (Except.error.inj hafter).symm
  unfold verdict at hverdict
  split at hverdict
  · rename_i error hnext
    obtain rfl := Verdict.giveUp.inj hverdict
    cases schedule with
    | oneShot => simp [nextRun] at hnext
    | fixedRate period | fixedDelay period => exact ⟨period, rfl, hafter hnext⟩
  · simp at hverdict
  · split at hverdict <;> simp at hverdict

/-- No body ends with the error for which a task is given up. -/
theorem Ending.error?_ne_outOfRange (ending : Ending α) (period : Span) :
    ending.error? ≠ some (.outOfRange period) := by
  cases ending <;> simp [error?, TaskError.ofPayload]

end Faults

/-- How many bodies have been entered and not left in a stage of a run. -/
def Stage.unended {α : Type} : Stage α → Nat
  | .inside _ => 1
  | .left _ | .rearmed | .refused => 0

namespace Scheduler

variable {α : Type} {before after scheduler : Scheduler α} {action : Action α}
variable {config : Config} {cores : Nat} {past : List (Scheduler α × Action α)} {task : TaskId}

/-! ## Tasks that are given up -/

/-- Whether a run whose body has failed is settled with an action, and the task is given up. -/
def FailsTwice (scheduler : Scheduler α) (action : Action α) (task : TaskId) : Prop :=
  ∃ error reason, scheduler.settles? action = some (task, some error, .giveUp reason)

/-- The errors for which a task has been given up, each with the error of the last body. -/
def givings (past : List (Scheduler α × Action α)) (task : TaskId) :
    List (Option TaskError × TaskError) :=
  (past.filterMap fun step =>
    (step.1.settles? step.2).bind fun settled =>
      if settled.1 = task then settled.2.2.reason?.map (settled.2.1, ·) else none).reverse

theorem givings_of_settles {error? : Option TaskError} {verdict : Verdict}
    (hsettles : before.settles? action = some (task, error?, verdict)) :
    givings ((before, action) :: past) task =
      givings past task ++ verdict.reason?.toList.map (error?, ·) := by
  simp only [givings, List.filterMap_cons, hsettles, Option.bind_some, if_true]
  cases verdict.reason? with
  | none => exact (List.append_nil _).symm
  | some reason => exact List.reverse_cons

theorem givings_of_not (hnot : ∀ settlement, before.settles? action ≠ some (task, settlement)) :
    givings ((before, action) :: past) task = givings past task := by
  have hnone : ((before.settles? action).bind fun settled =>
      if settled.1 = task then settled.2.2.reason?.map (settled.2.1, ·) else none) = none := by
    rw [Option.bind_eq_none_iff]
    rintro ⟨moved, settlement⟩ hsettles
    exact if_neg fun htask => hnot settlement (by rw [hsettles, ← htask])
  simp only [givings, List.filterMap_cons, hnone]

theorem mem_givings {error? : Option TaskError} {reason : TaskError} :
    (error?, reason) ∈ givings past task ↔
      ∃ step ∈ past, step.1.settles? step.2 = some (task, error?, .giveUp reason) := by
  rw [givings, List.mem_reverse, List.mem_filterMap]
  refine exists_congr fun step => and_congr_right fun _ => ?_
  rw [Option.bind_eq_some_iff]
  constructor
  · rintro ⟨⟨moved, found?, verdict⟩, hsettles, hgiven⟩
    split at hgiven
    · rename_i htask
      obtain ⟨found, hreason, hpair⟩ := Option.map_eq_some_iff.mp hgiven
      obtain ⟨rfl, rfl⟩ := Prod.mk.inj hpair
      cases verdict with
      | giveUp error => rw [hsettles, ← htask, Option.some.inj hreason]
      | finish | rearm => simp [Verdict.reason?] at hreason
    · simp at hgiven
  · exact fun hsettles => ⟨_, hsettles, by simp [Verdict.reason?]⟩

theorem exists_failsTwice_iff :
    (∃ step ∈ past, step.1.FailsTwice step.2 task) ↔
      ∃ error reason, (some error, reason) ∈ givings past task := by
  simp only [mem_givings, FailsTwice]
  constructor
  · rintro ⟨step, hmem, error, reason, hsettles⟩
    exact ⟨error, reason, step, hmem, hsettles⟩
  · rintro ⟨error, reason, step, hmem, hsettles⟩
    exact ⟨step, hmem, error, reason, hsettles⟩

theorem exists_job_of_settles {error? : Option TaskError} {verdict : Verdict}
    (hsettles : before.settles? action = some (task, error?, verdict)) :
    ∃ worker job record, action = .work worker ∧
      (before.jobs.find? fun job => job.worker == worker) = some job ∧ job.task = task ∧
      job.stage = .left error? ∧ before.agenda.clock.isReadable = true ∧
      before.record? task = some record ∧
      record.schedule.verdict before.agenda.policy job.dueAt before.agenda.reading error? =
        verdict := by
  unfold settles? at hsettles
  split at hsettles
  · rename_i worker
    split at hsettles
    · rename_i job hfind
      split at hsettles
      · rename_i found? record hstage hrecord
        split at hsettles
        · rename_i hreadable
          obtain ⟨rfl, hpair⟩ := Prod.mk.inj (Option.some.inj hsettles)
          obtain ⟨rfl, hverdict⟩ := Prod.mk.inj hpair
          exact ⟨worker, job, record, rfl, hfind, rfl, hstage, hreadable, hrecord, hverdict⟩
        · simp at hsettles
      · simp at hsettles
    · simp at hsettles
  · simp at hsettles

/-- The task is over, and it has a period. -/
def IsSpent (period : Span) (task : TaskId) (scheduler : Scheduler α) : Prop :=
  scheduler.Has task fun record =>
    record.schedule.period? = some period ∧ IsOver task scheduler record

theorem IsSpent.phase?_eq_none {period : Span} (hspent : IsSpent period task scheduler) :
    scheduler.phase? task = none := by
  obtain ⟨record, -, -, hover⟩ := hspent
  exact Scheduler.phase?_eq_none hover.inProgress_eq

theorem IsSpent.of_step {period : Span} (hspent : IsSpent period task before)
    (hsound : before.Sound) (hstep : before.step action = some after) :
    IsSpent period task after := by
  obtain ⟨record, hrecord, hperiod, hover⟩ := hspent
  obtain ⟨later, hlater, hevolves⟩ := hsound.recordsEvolve_of_step hstep task record hrecord
  exact ⟨later, hlater, by rw [hevolves.schedule_eq, hperiod],
    hover.of_step hsound hstep hrecord hlater⟩

/-- The verdict that a step announces is what it settles the record with. -/
theorem Sound.judged_of_settles (hsound : before.Sound) (hstep : before.step action = some after)
    {error? : Option TaskError} {verdict : Verdict} {record : Record α}
    (hsettles : before.settles? action = some (task, error?, verdict))
    (hrecord : before.record? task = some record) :
    Settling before after task ∧ Move before action before after ∧
      after.record? task = some (record.judged verdict).1 := by
  obtain ⟨worker, job, found, rfl, hfind, rfl, hstage, hreadable, hfound, hverdict⟩ :=
    exists_job_of_settles hsettles
  obtain rfl := Option.some.inj (hfound.symm.trans hrecord)
  have hjob := List.mem_of_find?_eq_some hfind
  obtain ⟨hsettling, hmove⟩ :=
    hsound.settling_of_completes hstep (completes?_of_left hfind hstage hreadable)
  obtain @⟨settled, found?, hsettled, hleft, htask, hjudged, -⟩ := id hsettling
  -- There is one run of the task in progress, so it is this one that is settled.
  obtain rfl := hsound.job_unique hjob hsettled (by rw [Job.place, hstage])
    (by rw [Job.place, hleft]) htask
  obtain rfl := Stage.left.inj (hstage.symm.trans hleft)
  exact ⟨hsettling, hmove, hverdict ▸ hjudged found hrecord⟩

/-- A task that is given up is over. -/
theorem Sound.isSpent_of_giveUp (hsound : before.Sound) (hstep : before.step action = some after)
    {error? : Option TaskError} {reason : TaskError}
    (hsettles : before.settles? action = some (task, error?, .giveUp reason)) :
    ∃ period, reason = .outOfRange period ∧ IsSpent period task after := by
  obtain ⟨worker, job, record, rfl, hfind, rfl, hstage, -, hrecord, hverdict⟩ :=
    exists_job_of_settles hsettles
  obtain ⟨period, hperiod, hreason⟩ := Schedule.exists_period_of_giveUp hverdict
  obtain ⟨hsettling, hmove, hlater⟩ := hsound.judged_of_settles hstep hsettles hrecord
  have hbusy : before.Has job.task Record.IsBusy := by
    have hplace : job.place = .running := by rw [Job.place, hstage]
    obtain ⟨-, found, hfound, hbusy, -⟩ :=
      hsound.custody.fitsAt_of_mem (hplace ▸ mem_tasksAt_place (List.mem_of_find?_eq_some hfind))
    exact ⟨found, hfound, hbusy⟩
  have hdone : (record.judged (.giveUp reason)).1.isDone = true := by
    rw [Record.isDone, record.judged_state]
    split
    · rfl
    · rename_i hnot
      rw [(hbusy.holds hrecord).resolve_left hnot]
      rfl
  exact ⟨period, hreason, _, hlater, by rw [record.judged_schedule, hperiod],
    hsettling.isOver hmove hsound hbusy hdone⟩

/-! ## The ledger -/

/-- What has been counted against a task, and how far its run is. -/
structure Ledger (past : List (Scheduler α × Action α)) (task : TaskId)
    (scheduler : Scheduler α) : Prop where
  failures_eq : (scheduler.account task).failures = (charges past scheduler task).length
  lastError?_eq : (scheduler.account task).lastError? =
    (charges past scheduler task).getLast?.map Failure.error
  runs_eq : (scheduler.account task).runs =
    (endings past task).length + (scheduler.phase? task).elim 0 Stage.unended
  left : ∀ error?, scheduler.phase? task = some (.left error?) →
    (endings past task).getLast?.map Ending.error? = some error?
  charges_eq : charges past scheduler task =
    faults task (scheduler.account task).mode (endings past task) ++
      (givings past task).map fun given => (scheduler.account task).failure task given.2
  given : givings past task = [] ∨ ∃ error? period,
    givings past task = [(error?, .outOfRange period)] ∧
      (endings past task).getLast?.map Ending.error? = some error? ∧
      IsSpent period task scheduler

namespace Ledger

variable (hledger : Ledger past task before)

include hledger

theorem givings_eq_nil (hopen : before.phase? task ≠ none ∨ task ∈ before.backlog) :
    givings past task = [] := by
  refine hledger.given.resolve_right ?_
  rintro ⟨error?, period, -, -, hspent⟩
  rcases hopen with hphase | hbacklog
  · exact hphase hspent.phase?_eq_none
  · obtain ⟨record, -, -, hover⟩ := hspent
    exact hover.not_mem hbacklog

/-- Nothing has been counted against a task that has not run. -/
theorem eq_nil_of_isBlank (hblank : (before.account task).IsBlank) :
    endings past task = [] ∧ charges past before task = [] ∧ givings past task = [] := by
  have hruns := hledger.runs_eq
  have hfailures := hledger.failures_eq
  rw [hblank.runs_eq] at hruns
  rw [hblank.failures_eq] at hfailures
  have hcharges := List.eq_nil_of_length_eq_zero hfailures.symm
  have hsplit := hledger.charges_eq
  rw [hcharges] at hsplit
  exact ⟨List.eq_nil_of_length_eq_zero (by omega), hcharges,
    List.map_eq_nil_iff.mp (List.append_eq_nil_iff.mp hsplit.symm).2⟩

/-- A body is entered. -/
theorem begun {turn? : Option (Turn α)} (hends : before.ends? action = none)
    (hsettles : before.settles? action = none) (hbacklog : task ∈ before.backlog)
    (hbefore : before.phase? task = none) (hafter : after.phase? task = some (.inside turn?))
    (haccount : after.account task = (before.account task).begun) :
    Ledger ((before, action) :: past) task after := by
  have hgivings := hledger.givings_eq_nil (Or.inr hbacklog)
  have hcharges : charges ((before, action) :: past) after task = charges past before task :=
    charges_of_eq (by rw [haccount]; rfl)
  have hendings : endings ((before, action) :: past) task = endings past task :=
    endings_of_not (by simp [hends])
  have hgiven : givings ((before, action) :: past) task = givings past task :=
    givings_of_not (by simp [hsettles])
  have hruns := hledger.runs_eq
  have hsplit := hledger.charges_eq
  rw [hbefore] at hruns
  rw [hgivings] at hsplit
  refine ⟨?_, ?_, ?_, fun error? hleft => ?_, ?_, Or.inl (hgiven.trans hgivings)⟩
  · rw [haccount, hcharges]
    exact hledger.failures_eq
  · rw [haccount, hcharges]
    exact hledger.lastError?_eq
  · rw [haccount, hendings, hafter]
    exact congrArg Nat.succ hruns
  · rw [hafter] at hleft
    simp at hleft
  · rw [hcharges, hendings, hgiven, hgivings, haccount]
    exact hsplit

/-- A body ends. -/
theorem ended {turn? : Option (Turn α)} {ending : Ending α}
    (hends : before.ends? action = some (task, ending)) (hsettles : before.settles? action = none)
    (hbefore : before.phase? task = some (.inside turn?))
    (hafter : after.phase? task = some (.left ending.error?))
    (haccount : after.account task = (before.account task).charged ending.error?) :
    Ledger ((before, action) :: past) task after := by
  have hgivings := hledger.givings_eq_nil (Or.inl (by simp [hbefore]))
  have hcharges : charges ((before, action) :: past) after task = charges past before task ++
      ending.error?.toList.map ((before.account task).failure task) :=
    charges_of_charged haccount
  have hendings : endings ((before, action) :: past) task = endings past task ++ [ending] :=
    endings_of_ends hends
  have hgiven : givings ((before, action) :: past) task = givings past task :=
    givings_of_not (by simp [hsettles])
  have hruns := hledger.runs_eq
  have hsplit := hledger.charges_eq
  rw [hbefore] at hruns
  rw [hgivings, List.map_nil, List.append_nil] at hsplit
  refine ⟨?_, ?_, ?_, fun error? hleft => ?_, ?_, Or.inl (hgiven.trans hgivings)⟩
  · rw [haccount, hcharges, Account.charged_failures, List.length_append, List.length_map,
      hledger.failures_eq]
  · rw [haccount, hcharges, Account.charged_lastError?]
    cases ending.error? with
    | none => simpa using hledger.lastError?_eq
    | some error => simp [Account.failure]
  · rw [haccount, hendings, hafter, Account.charged_runs, hruns, List.length_append]
    rfl
  · rw [hafter] at hleft
    rw [hendings, List.getLast?_concat, ← Stage.left.inj (Option.some.inj hleft)]
    rfl
  · -- The run that ends is the last one that has begun.
    have hfailure : (before.account task).failure task = fun error =>
        ⟨task, (before.account task).mode, (endings past task).length + 1, error⟩ := by
      funext error
      rw [Account.failure, hruns]
      rfl
    rw [hcharges, hendings, hgiven, hgivings, hsplit, haccount, Account.charged_mode,
      faults_concat, List.map_nil, List.append_nil, hfailure]

/-- A run is settled. -/
theorem settled {error? : Option TaskError} {verdict : Verdict} (hsound : before.Sound)
    (hstep : before.step action = some after) (hends : before.ends? action = none)
    (hsettles : before.settles? action = some (task, error?, verdict))
    (hbefore : before.phase? task = some (.left error?)) (hafter : after.phase? task = none)
    (haccount : after.account task = (before.account task).charged verdict.reason?) :
    Ledger ((before, action) :: past) task after := by
  -- The task has not been given up before, since a run of it is in progress.
  have hgivings := hledger.givings_eq_nil (Or.inl (by simp [hbefore]))
  have hcharges : charges ((before, action) :: past) after task = charges past before task ++
      verdict.reason?.toList.map ((before.account task).failure task) :=
    charges_of_charged haccount
  have hendings : endings ((before, action) :: past) task = endings past task :=
    endings_of_not (by simp [hends])
  have hgiven : givings ((before, action) :: past) task =
      verdict.reason?.toList.map (error?, ·) := by
    rw [givings_of_settles hsettles, hgivings, List.nil_append]
  have hruns := hledger.runs_eq
  have hsplit := hledger.charges_eq
  rw [hbefore] at hruns
  rw [hgivings, List.map_nil, List.append_nil] at hsplit
  refine ⟨?_, ?_, ?_, fun found? hleft => ?_, ?_, ?_⟩
  · rw [haccount, hcharges, Account.charged_failures, List.length_append, List.length_map,
      hledger.failures_eq]
  · rw [haccount, hcharges, Account.charged_lastError?]
    cases verdict.reason? with
    | none => simpa using hledger.lastError?_eq
    | some error => simp [Account.failure]
  · rw [haccount, hendings, hafter, Account.charged_runs, hruns]
    rfl
  · rw [hafter] at hleft
    simp at hleft
  · rw [hcharges, hendings, hgiven, hsplit, haccount, Account.charged_mode, List.map_map,
      Account.charged_failure]
    rfl
  · rw [hgiven, hendings]
    cases verdict with
    | finish | rearm => exact Or.inl rfl
    | giveUp reason =>
        obtain ⟨period, rfl, hspent⟩ := hsound.isSpent_of_giveUp hstep hsettles
        exact Or.inr ⟨error?, period, rfl, hledger.left error? hbefore, hspent⟩

/-- Nothing becomes of the run. -/
theorem quiet (hsound : before.Sound) (hstep : before.step action = some after)
    (hends : ∀ ending, before.ends? action ≠ some (task, ending))
    (hsettles : ∀ settlement, before.settles? action ≠ some (task, settlement))
    (hphase : after.phase? task = before.phase? task)
    (haccount : after.account task = before.account task ∨
      (before.account task).IsBlank ∧ (after.account task).IsBlank) :
    Ledger ((before, action) :: past) task after := by
  have hendings : endings ((before, action) :: past) task = endings past task :=
    endings_of_not hends
  have hgiven : givings ((before, action) :: past) task = givings past task :=
    givings_of_not hsettles
  obtain ⟨hruns, hfailures, hlast⟩ := Account.counts_eq haccount
  have hcharges : charges ((before, action) :: past) after task = charges past before task :=
    charges_of_eq hfailures
  refine ⟨?_, ?_, ?_, fun error? hleft => ?_, ?_, ?_⟩
  · rw [hfailures, hcharges]
    exact hledger.failures_eq
  · rw [hlast, hcharges]
    exact hledger.lastError?_eq
  · rw [hruns, hendings, hphase]
    exact hledger.runs_eq
  · rw [hendings]
    exact hledger.left error? (hphase.symm.trans hleft)
  · rw [hcharges, hendings, hgiven]
    rcases haccount with hsame | ⟨hblank, -⟩
    · rw [hsame]
      exact hledger.charges_eq
    · obtain ⟨hended, hcounted, hgivings⟩ := hledger.eq_nil_of_isBlank hblank
      rw [hended, hcounted, hgivings]
      rfl
  · rw [hgiven, hendings]
    refine hledger.given.imp_right ?_
    rintro ⟨error?, period, hgivings, hended, hspent⟩
    exact ⟨error?, period, hgivings, hended, hspent.of_step hsound hstep⟩

end Ledger

theorem Run.ledger (hrun : Run config cores past scheduler) (task : TaskId) :
    Ledger past task scheduler := by
  induction hrun with
  | start hcreated =>
      obtain rfl := new_eq_ok hcreated
      exact ⟨rfl, rfl, rfl, fun _ hleft => by simp [phase?, phases] at hleft, rfl, Or.inl rfl⟩
  | @step past before after hrun action hstep ih =>
      have hsound := hrun.reachable.sound
      cases hrun.reachable.episode hstep task with
      | begun hends hsettles hbacklog hbefore hafter haccount =>
          exact ih.begun hends hsettles hbacklog hbefore hafter haccount
      | ended hends hsettles hbefore hafter haccount =>
          exact ih.ended hends hsettles hbefore hafter haccount
      | settled hends hsettles hbefore hafter haccount =>
          exact ih.settled hsound hstep hends hsettles hbefore hafter haccount
      | quiet hends hsettles hphase haccount =>
          exact ih.quiet hsound hstep hends hsettles hphase haccount

/-! ## Reports -/

/-- What has been reported of a task, if it has been observed. -/
structure Notified (past : List (Scheduler α × Action α)) (task : TaskId)
    (scheduler : Scheduler α) : Prop where
  run_le : ∀ report ∈ scheduler.agenda.reports task,
    report.run + (scheduler.phase? task).elim 0 (fun _ => 1) ≤ (scheduler.account task).runs
  nodup_iff : ((scheduler.agenda.reports task).map Failure.run).Nodup ↔
    ¬ ∃ step ∈ past, step.1.FailsTwice step.2 task ∧ step.1.agenda.observer?.isSome = true

/-- Nothing is reported. -/
theorem Notified.of_reports (hnotified : Notified past task before)
    (hreports : after.agenda.reports task = before.agenda.reports task)
    (hnot : ¬ before.FailsTwice action task)
    (hruns : ∀ run : Nat, run + (before.phase? task).elim 0 (fun _ => 1) ≤
        (before.account task).runs →
      run + (after.phase? task).elim 0 (fun _ => 1) ≤ (after.account task).runs) :
    Notified ((before, action) :: past) task after where
  run_le := by
    rw [hreports]
    exact fun report hreport => hruns report.run (hnotified.run_le report hreport)
  nodup_iff := by
    rw [hreports, hnotified.nodup_iff]
    simp [hnot]

/-- A run is settled, and that is reported if somebody observes. -/
theorem Notified.settled (hnotified : Notified past task before) {error? : Option TaskError}
    {verdict : Verdict} (hsettles : before.settles? action = some (task, error?, verdict))
    (hbefore : before.phase? task = some (.left error?)) (hafter : after.phase? task = none)
    (haccount : after.account task = (before.account task).charged verdict.reason?)
    (hreports : after.agenda.reports task = before.agenda.reports task ++
      if before.agenda.observer?.isSome then
        (error?.toList ++ verdict.reason?.toList).map ((before.account task).failure task)
      else []) :
    Notified ((before, action) :: past) task after := by
  have hearlier : ∀ report ∈ before.agenda.reports task,
      report.run < (before.account task).runs := by
    intro report hreport
    have hle := hnotified.run_le report hreport
    rwa [hbefore] at hle
  have htwice : before.FailsTwice action task ↔
      error?.isSome = true ∧ verdict.reason?.isSome = true := by
    simp only [FailsTwice, hsettles]
    cases error? <;> cases verdict <;> simp [Verdict.reason?]
  constructor
  · intro report hreport
    rw [hafter, haccount, Account.charged_runs]
    rw [hreports] at hreport
    rcases List.mem_append.mp hreport with hold | hnew
    · exact Nat.le_of_lt (hearlier report hold)
    · split at hnew
      · obtain ⟨error, -, rfl⟩ := List.mem_map.mp hnew
        exact Nat.le_refl _
      · exact absurd hnew List.not_mem_nil
  · rw [hreports]
    simp only [List.mem_cons, exists_eq_or_imp]
    cases hobserved : before.agenda.observer?.isSome with
    | false => simpa using hnotified.nodup_iff
    | true =>
        rw [if_pos rfl, Account.nodup_runs_iff hearlier, hnotified.nodup_iff, htwice, not_or,
          and_iff_left rfl, and_comm]
        refine and_congr_left fun _ => ?_
        cases error? <;> cases verdict.reason? <;> simp

theorem Run.notified (hrun : Run config cores past scheduler) (task : TaskId) :
    Notified past task scheduler := by
  induction hrun with
  | start hcreated =>
      obtain rfl := new_eq_ok hcreated
      exact ⟨by simp [Agenda.reports], by simp [Agenda.reports]⟩
  | @step past before after hrun action hstep ih =>
      -- Each step is an episode in the life of the task, and only settling a run is reported.
      cases hrun.reachable.episode hstep task with
      | begun hends hsettles hbacklog hbefore hafter haccount hreports =>
          refine ih.of_reports hreports (by simp [FailsTwice, hsettles]) fun run hle => ?_
          rw [hafter, haccount]
          rw [hbefore] at hle
          exact Nat.succ_le_succ hle
      | ended hends hsettles hbefore hafter haccount hreports =>
          refine ih.of_reports hreports (by simp [FailsTwice, hsettles]) fun run hle => ?_
          rw [hafter, haccount, Account.charged_runs]
          rwa [hbefore] at hle
      | settled hends hsettles hbefore hafter haccount hreports =>
          exact ih.settled hsettles hbefore hafter haccount hreports
      | quiet hends hsettles hphase haccount hreports =>
          refine ih.of_reports hreports (by simp [FailsTwice, hsettles]) fun run hle => ?_
          rwa [hphase, (Account.counts_eq haccount).1]

/-! ## Tasks that have been given up and all others -/

/-- The task has been given up after a last body that has ended in some way. -/
structure GivenUp (past : List (Scheduler α × Action α)) (task : TaskId) (scheduler : Scheduler α)
    (earlier : List (Ending α)) (ending : Ending α) (period : Span) : Prop where
  endings_eq : endings past task = earlier ++ [ending]
  runs_eq : (scheduler.account task).runs = earlier.length + 1
  charges_eq : charges past scheduler task =
    faults task (scheduler.account task).mode earlier ++
      (ending.error?.toList ++ [TaskError.outOfRange period]).map
        ((scheduler.account task).failure task)
  twice_iff : (∃ step ∈ past, step.1.FailsTwice step.2 task) ↔ ending.error?.isSome = true
  spent : IsSpent period task scheduler

theorem Ledger.open_or_givenUp (hledger : Ledger past task scheduler) :
    (charges past scheduler task =
        faults task (scheduler.account task).mode (endings past task) ∧
      ¬ ∃ step ∈ past, step.1.FailsTwice step.2 task) ∨
    ∃ earlier ending period, GivenUp past task scheduler earlier ending period := by
  rw [exists_failsTwice_iff]
  rcases hledger.given with hnil | ⟨error?, period, hgivings, hlast, hspent⟩
  · left
    rw [hledger.charges_eq, hnil]
    exact ⟨List.append_nil _, by simp⟩
  · right
    obtain ⟨ending, hending, rfl⟩ := Option.map_eq_some_iff.mp hlast
    obtain ⟨earlier, hendings⟩ := List.getLast?_eq_some_iff.mp hending
    have hruns := hledger.runs_eq
    rw [hspent.phase?_eq_none, hendings, List.length_append] at hruns
    have hfailure : (scheduler.account task).failure task = fun error =>
        ⟨task, (scheduler.account task).mode, earlier.length + 1, error⟩ := by
      funext error
      rw [Account.failure, hruns]
      rfl
    refine ⟨earlier, ending, period, hendings, hruns, ?_, ?_, hspent⟩
    · rw [hledger.charges_eq, hendings, hgivings, faults_concat, hfailure, List.map_append,
        List.append_assoc]
      rfl
    · rw [exists_failsTwice_iff, hgivings]
      cases ending.error? <;> simp

section Ledger

variable (hledger : Ledger past task scheduler)

include hledger

theorem Ledger.nodup_iff : ((charges past scheduler task).map Failure.run).Nodup ↔
    ¬ ∃ step ∈ past, step.1.FailsTwice step.2 task := by
  rcases hledger.open_or_givenUp with ⟨hcharges, hnot⟩ | ⟨earlier, ending, period, hgiven⟩
  · rw [hcharges]
    exact iff_of_true (nodup_faults ..) hnot
  · have hless : ∀ failure ∈ faults task (scheduler.account task).mode earlier,
        failure.run < (scheduler.account task).runs := by
      intro failure hmem
      rw [hgiven.runs_eq]
      exact Nat.lt_succ_of_le (run_of_mem_faults hmem).2.1
    rw [hgiven.charges_eq, hgiven.twice_iff, Account.nodup_runs_iff hless,
      and_iff_right (nodup_faults ..)]
    cases ending.error? <;> simp

/-- More failures than runs are counted if all bodies have failed and the task is given up. -/
theorem Ledger.failures_le_iff : (scheduler.account task).failures ≤ (scheduler.account task).runs ↔
    ¬ ((∃ step ∈ past, step.1.FailsTwice step.2 task) ∧
      ∀ ending ∈ endings past task, ending.error?.isSome = true) := by
  rw [hledger.failures_eq]
  rcases hledger.open_or_givenUp with ⟨hcharges, hnot⟩ | ⟨earlier, ending, period, hgiven⟩
  · refine iff_of_true ?_ fun hboth => hnot hboth.1
    rw [hcharges, length_faults, hledger.runs_eq]
    exact Nat.le_trans List.countP_le_length (Nat.le_add_right ..)
  · rw [hgiven.charges_eq, hgiven.twice_iff, hgiven.endings_eq, hgiven.runs_eq]
    have hle : (earlier.countP fun ending => ending.error?.isSome) ≤ earlier.length :=
      List.countP_le_length
    rw [List.length_append, length_faults, List.length_map, List.forall_mem_append,
      ← List.countP_eq_length, List.forall_mem_singleton]
    cases ending.error? with
    | none => simpa using hle
    | some error =>
        simp only [Option.toList_some, List.length_append, List.length_singleton,
          Option.isSome_some, true_and, and_true]
        omega

/-- After a run whose body has failed, the last error is another one if the task is given up. -/
theorem Ledger.lastError?_iff {ending : Ending α} {error : TaskError}
    (hlast : (endings past task).getLast? = some ending) (herror : ending.error? = some error) :
    (scheduler.account task).lastError? = some error ↔
      ¬ ∃ step ∈ past, step.1.FailsTwice step.2 task := by
  rw [hledger.lastError?_eq]
  rcases hledger.open_or_givenUp with ⟨hcharges, hnot⟩ | ⟨earlier, final, period, hgiven⟩
  · refine iff_of_true ?_ hnot
    obtain ⟨earlier, hendings⟩ := List.getLast?_eq_some_iff.mp hlast
    rw [hcharges, hendings, faults_concat, herror]
    simp
  · rw [hgiven.endings_eq, List.getLast?_concat] at hlast
    obtain rfl := Option.some.inj hlast
    rw [hgiven.charges_eq, hgiven.twice_iff, herror]
    refine iff_of_false (fun hsame => final.error?_ne_outOfRange period ?_) (by simp)
    simpa [Account.failure, herror, eq_comm] using hsame

end Ledger

/-- Each run of a task comes to one failure at most, with one exception. -/
structure OncePerRun (past : List (Scheduler α × Action α)) (task : TaskId)
    (scheduler : Scheduler α) (record : Record α) : Prop where
  failures_eq : record.failures = (charges past scheduler task).length
  /-- What is counted are the errors of bodies and, for the last run, that the task is given up. -/
  charges_eq : charges past scheduler task =
    faults task record.mode (endings past task) ++
      (givings past task).map fun given => ⟨task, record.mode, record.runs, given.2⟩
  givings_le : (givings past task).length ≤ 1
  counted_iff : ((charges past scheduler task).map Failure.run).Nodup ↔
    ¬ ∃ step ∈ past, step.1.FailsTwice step.2 task
  failures_le_iff : record.failures ≤ record.runs ↔
    ¬ ((∃ step ∈ past, step.1.FailsTwice step.2 task) ∧
      ∀ ending ∈ endings past task, ending.error?.isSome = true)
  reported_iff : ((scheduler.agenda.reports task).map Failure.run).Nodup ↔
    ¬ ∃ step ∈ past, step.1.FailsTwice step.2 task ∧ step.1.agenda.observer?.isSome = true
  lastError?_iff : ∀ ending error, (endings past task).getLast? = some ending →
    ending.error? = some error →
      (record.lastError? = some error ↔ ¬ ∃ step ∈ past, step.1.FailsTwice step.2 task)
  /-- The exception is the last run of the task. -/
  twice : (∃ step ∈ past, step.1.FailsTwice step.2 task) →
    ∃ earlier error period, record.schedule.period? = some period ∧
      record.lastError? = some (.outOfRange period) ∧
      charges past scheduler task = earlier ++
        [⟨task, record.mode, record.runs, error⟩,
          ⟨task, record.mode, record.runs, .outOfRange period⟩] ∧
      (earlier.map Failure.run).Nodup ∧ ∀ failure ∈ earlier, failure.run < record.runs

/-- In every run of a scheduler, whatever its policy and its bodies, each run of a task counts one
failure against it at most and is reported once at most, and after a run whose body has failed the
last error is that of the body, unless the task is given up after a run whose body has failed.  In
that case its last run counts twice, it is reported twice if somebody observes, and the last error
is that the next due time cannot be represented; there are more failures than runs if all bodies
have failed. -/
theorem Run.failures_once_per_run (hrun : Run config cores past scheduler) {record : Record α}
    (hrecord : scheduler.record? task = some record) : OncePerRun past task scheduler record := by
  have hledger := hrun.ledger task
  have hlast := hledger.lastError?_eq
  have hle := hledger.failures_le_iff
  have hcharges := hledger.charges_eq
  rw [account_eq hrecord] at hlast hle hcharges
  refine ⟨?_, hcharges, ?_, hledger.nodup_iff, hle, (hrun.notified task).nodup_iff,
    fun ending error hending herror => ?_, fun htwice => ?_⟩
  · rw [← hledger.failures_eq, account_eq hrecord]
    rfl
  · rcases hledger.given with hnil | ⟨error?, period, hgivings, -⟩
    · rw [hnil]
      exact Nat.zero_le _
    · rw [hgivings]
      exact Nat.le_refl _
  · rw [← hledger.lastError?_iff hending herror, account_eq hrecord]
    rfl
  · rcases hledger.open_or_givenUp with ⟨-, hnot⟩ | ⟨earlier, ending, period, hgiven⟩
    · exact absurd htwice hnot
    · obtain ⟨error, herror⟩ := Option.isSome_iff_exists.mp (hgiven.twice_iff.mp htwice)
      obtain ⟨found, hfound, hperiod, -⟩ := hgiven.spent
      obtain rfl := Option.some.inj (hfound.symm.trans hrecord)
      have hsplit := hgiven.charges_eq
      have hruns := hgiven.runs_eq
      rw [account_eq hrecord, herror] at hsplit
      rw [account_eq hrecord] at hruns
      refine ⟨_, error, period, hperiod, ?_, hsplit, nodup_faults .., fun failure hmem => ?_⟩
      · rw [hsplit, Option.toList_some, List.singleton_append, List.map_cons, List.map_singleton,
          List.getLast?_append_cons] at hlast
        exact hlast
      · show failure.run < found.account.runs
        rw [hruns]
        exact Nat.lt_succ_of_le (run_of_mem_faults hmem).2.1

/-- The first run of a task fails.  The second one does not, but there can be no third one, and the
task is given up: two runs, two failures. -/
theorem failures_once_per_run_of_last_given_up :
    ∃ (past : List (Scheduler Unit × Action Unit)) (scheduler : Scheduler Unit)
      (record : Record Unit), Run {} 1 past scheduler ∧ scheduler.record? 0 = some record ∧
      record.runs = 2 ∧ record.failures = 2 ∧
      (scheduler.agenda.reports 0).map Failure.run = [1, 2] ∧
      OncePerRun past 0 scheduler record := by
  have hview : (played {} 1
      [.observe .calm,
        .request (.schedule { plainTask (.fixedRate (.ofSeconds 9000000000000000000)) .zero with
          script := fun run =>
            { ending := if run = 1 then .error "refused" else .value () } } true),
        .proceed 0, .dispatch, .dispatch, .takeUp 0, .work 0, .work 0, .work 0,
        .advance (.ofSeconds 9000000000000000000), .announce, .dispatch, .dispatch, .takeUp 0,
        .work 0, .work 0]).map (fun result =>
          ((result.2.record? 0).map fun record => (record.runs, record.failures),
            (result.2.agenda.reports 0).map Failure.run)) =
      some (some (2, 2), [1, 2]) := by
    decide +kernel
  obtain ⟨⟨past, scheduler⟩, hplayed, hparts⟩ := Option.map_eq_some_iff.mp hview
  obtain ⟨hrecord, hreports⟩ := Prod.mk.inj hparts
  obtain ⟨record, hrecord, hcounts⟩ := Option.map_eq_some_iff.mp hrecord
  obtain ⟨hruns, hfailures⟩ := Prod.mk.inj hcounts
  have hrun := Run.of_played hplayed
  exact ⟨past, scheduler, record, hrun, hrecord, hruns, hfailures, hreports,
    hrun.failures_once_per_run hrecord⟩

/-- Both runs of a task fail, and after the second one it is given up: three failures are counted,
two of them are reported for the second run, and the last error is not that of its body. -/
theorem not_failures_once_per_run :
    ∃ (past : List (Scheduler Unit × Action Unit)) (scheduler : Scheduler Unit)
      (record : Record Unit), Run {} 1 past scheduler ∧ scheduler.record? 0 = some record ∧
      ¬ record.failures ≤ record.runs ∧
      ¬ ((scheduler.agenda.reports 0).map Failure.run).Nodup ∧
      (endings past 0).map Ending.error? = [some (.failed "refused"), some (.failed "refused")] ∧
      record.lastError? ≠ some (.failed "refused") := by
  have hview : (played {} 1
      [.observe .calm,
        .request (.schedule { plainTask (.fixedRate (.ofSeconds 9000000000000000000)) .zero with
          script := fun _ => { ending := (.error "refused" : Ending Unit) } } true),
        .proceed 0, .dispatch, .dispatch, .takeUp 0, .work 0, .work 0, .work 0,
        .advance (.ofSeconds 9000000000000000000), .announce, .dispatch, .dispatch, .takeUp 0,
        .work 0, .work 0]).map (fun result =>
          ((result.2.record? 0).map fun record => (record.runs, record.failures, record.lastError?),
            (result.2.agenda.reports 0).map Failure.run,
            (endings result.1 0).map Ending.error?)) =
      some (some (2, 3, some (.outOfRange (.ofSeconds 9000000000000000000))), [1, 2, 2],
        [some (.failed "refused"), some (.failed "refused")]) := by
    decide +kernel
  obtain ⟨⟨past, scheduler⟩, hplayed, hparts⟩ := Option.map_eq_some_iff.mp hview
  obtain ⟨hrecord, hparts⟩ := Prod.mk.inj hparts
  obtain ⟨hreports, hendings⟩ := Prod.mk.inj hparts
  obtain ⟨record, hrecord, hcounts⟩ := Option.map_eq_some_iff.mp hrecord
  obtain ⟨hruns, hcounts⟩ := Prod.mk.inj hcounts
  obtain ⟨hfailures, hlast⟩ := Prod.mk.inj hcounts
  refine ⟨past, scheduler, record, Run.of_played hplayed, hrecord, ?_, ?_, hendings, ?_⟩
  · rw [hruns, hfailures]
    decide
  · rw [hreports]
    decide
  · rw [hlast]
    simp

end Scheduler

end TimedTasks
