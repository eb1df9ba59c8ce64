import TimedTasks.Proofs.Scheduler.Lapse
import TimedTasks.Proofs.Scheduler.Observers

/-!
# Failures that scripts ask for

The scripts say in advance which runs of a task fail (`Record.faults`).  While nobody attends to a
scheduler, these are the runs that it counts as failed when they are settled, and reports if
somebody observes.

For that the error that a worker brings from a body has to be the one that the script has for that
run (`Faithful`).
-/

namespace TimedTasks

/-- How many of the first `count` runs of a task fail. -/
def Record.faults {α : Type} (record : Record α) (count : Nat) : Nat :=
  (List.range count).countP fun run => (record.script (run + 1)).ending.error?.isSome

theorem Record.faults_succ {α : Type} (record : Record α) (count : Nat) :
    record.faults (count + 1) =
      record.faults count + (record.script (count + 1)).ending.error?.toList.length := by
  rw [faults, faults, List.range_succ, List.countP_append, List.countP_singleton]
  cases (record.script (count + 1)).ending.error? <;> rfl

theorem Schedule.outcome_ne_failed {schedule : Schedule} {policy : FailurePolicy}
    {dueAt completedAt : Moment}
    (hkept : (schedule.verdict policy dueAt completedAt none).reason? = none) :
    (schedule.verdict policy dueAt completedAt none).outcome ≠ .failed := by
  unfold verdict at hkept ⊢
  split
  · rename_i error hnext
    simp [hnext, Verdict.reason?] at hkept
  · simp [Verdict.outcome]
  · simp [Verdict.outcome]

namespace Agenda

variable {α : Type} {agenda after : Agenda α} {task : TaskId} {record : Record α}

/-- How many failures have been reported. -/
def heard (agenda : Agenda α) : Nat := agenda.history.countP Event.isReport

theorem length_failureLines (agenda : Agenda α) :
    (agenda.failureLines agenda.history).length = agenda.heard := by
  rw [failureLines, List.length_filterMap_eq_countP, heard]
  refine List.countP_congr fun event _ => ?_
  cases event <;> simp [Event.isReport]

theorem heard_report (hrecord : agenda.records[task]? = some record)
    (hobserved : agenda.observer?.isSome = true) (error : TaskError) :
    (agenda.report task error).heard = agenda.heard + 1 := by
  obtain ⟨observer, hobserver⟩ := Option.isSome_iff_exists.mp hobserved
  simp only [report, hobserver, hrecord, heard, note]
  exact List.countP_cons_of_pos rfl

theorem heard_attempt (agenda : Agenda α) (task : TaskId)
    (move : Record α → Option (Record α)) :
    (agenda.attempt task move).1.heard = agenda.heard := by
  unfold attempt
  split <;> rfl

/-- A run that is settled is reported if its body has failed, and once more if the task is given
up. -/
theorem heard_settle {job : Job α} {completedAt : Moment} {error? : Option TaskError}
    {again : Bool}
    (hrecord : agenda.records[job.task]? = some record)
    (hobserved : agenda.observer?.isSome = true)
    (hsettle : agenda.settle job completedAt error? = (after, again)) :
    after.heard = agenda.heard + error?.toList.length +
      (record.schedule.verdict agenda.policy job.dueAt completedAt
        error?).reason?.toList.length := by
  obtain rfl : (agenda.settle job completedAt error?).1 = after := congrArg Prod.fst hsettle
  have haccount : (agenda.account job completedAt error?).heard =
      agenda.heard + error?.toList.length := by
    simp only [account, hrecord]
    cases error? with
    | none => rfl
    | some error => exact heard_report (by exact hrecord) (by exact hobserved) error
  have hrecords := records_account agenda job completedAt error?
  have hobserver := observer?_account agenda job completedAt error?
  simp only [settle, hrecord]
  rw [← haccount]
  generalize agenda.account job completedAt error? = counted at hrecords hobserver ⊢
  rw [← hrecords] at hrecord
  cases record.schedule.verdict agenda.policy job.dueAt completedAt error? with
  | giveUp error =>
      have hnoted : (counted.noteFailure job.task error).records[job.task]? =
          some (record.noteFailure error) :=
        (records_update hrecord _ job.task).trans (if_pos rfl)
      exact (heard_attempt ..).trans (heard_report hnoted (hobserver ▸ hobserved) error)
  | finish outcome => exact heard_attempt ..
  | rearm next => simp [carryOut, rearm, hrecord, heard, Verdict.reason?]

end Agenda

namespace Scheduler

variable {α : Type} {origin before after scheduler : Scheduler α} {action : Action α}
variable {config : Config} {cores : Nat} {task culprit : TaskId}

/-! ## What is counted -/

/-- Nothing is counted or reported unless a run is settled. -/
theorem Move.counts_eq (hmove : Move origin action before after) (hsound : before.Sound)
    (hnot : origin.completes? action = none) :
    after.agenda.metrics.failed = before.agenda.metrics.failed ∧
      after.agenda.heard = before.agenda.heard := by
  cases hmove with
  | sweepDone _ _ hmetrics =>
      obtain ⟨abandoned, rfl⟩ := hmetrics
      exact ⟨rfl, rfl⟩
  | started _ _ _ _ _ hmetrics | discarded _ _ _ _ hmetrics =>
      subst hmetrics
      exact ⟨rfl, rfl⟩
  | @tookUp position moved worker htask =>
      obtain ⟨record, run, turn, hrecord, hbody⟩ := hsound.custody.exists_body htask
      rw [Agenda.enter_eq hrecord hbody worker before.agenda.reading]
      exact ⟨rfl, by simp [Agenda.heard, Agenda.note, Agenda.withRecord, Event.isReport]⟩
  | settled _ _ _ hcause | rearmed _ _ _ hcause =>
      obtain ⟨rfl, hcompletes⟩ := hcause
      exact absurd (hnot.symm.trans hcompletes) (by simp)
  | noted => exact ⟨rfl, by simp [Agenda.heard, Agenda.note, Event.isReport]⟩
  | _ => exact ⟨rfl, rfl⟩

/-- A run that is settled is counted as failed, and reported, if its body has failed. -/
theorem Sound.counts_of_completes (hsound : before.Sound)
    (hstep : before.step action = some after)
    (hcompletes : before.completes? action = some task)
    (hobserved : before.agenda.observer?.isSome = true) :
    ∃ job ∈ before.jobs, ∃ error? record, job.task = task ∧ job.stage = .left error? ∧
      before.record? task = some record ∧
      after.agenda.metrics.failed = before.agenda.metrics.failed + error?.toList.length ∧
      after.agenda.heard = before.agenda.heard + error?.toList.length +
        (record.schedule.verdict before.agenda.policy job.dueAt before.agenda.reading
          error?).reason?.toList.length := by
  obtain ⟨worker, job, error?, rfl, hfind, hstage, hreadable, rfl⟩ :=
    exists_job_of_completes hcompletes
  have hjob := List.mem_of_find?_eq_some hfind
  obtain ⟨record, hrecord⟩ := (hsound.custody.fitsAt_of_mem (mem_tasksAt_place hjob)).exists_record
  have hnow := Agenda.now_of_readable hreadable
  have hsettled : ∃ again,
      before.agenda.settle job before.agenda.reading error? = (after.agenda, again) := by
    simp only [step, hfind, work, hstage, hnow] at hstep
    split at hstep
    · rename_i agenda hsettle
      obtain rfl := Option.some.inj hstep
      exact ⟨true, hsettle⟩
    · rename_i agenda hsettle
      obtain rfl := Option.some.inj hstep
      exact ⟨false, hsettle⟩
  obtain ⟨again, hsettle⟩ := hsettled
  refine ⟨job, hjob, error?, record, rfl, hstage, hrecord, ?_,
    Agenda.heard_settle hrecord hobserved hsettle⟩
  rw [Agenda.metrics_settle hrecord hsettle]
  cases error? <;> rfl

/-! ## Errors -/

/-- The error that a worker brings from a body is the one that the script has for that run. -/
def Faithful (scheduler : Scheduler α) : Prop :=
  ∀ job ∈ scheduler.jobs, ∀ error?, job.stage = .left error? →
    scheduler.Has job.task fun record => error? = (record.script record.runs).ending.error?

/-- A worker has left a body for good, or leaves it with this action. -/
theorem Move.left_cases (hmove : Move origin action before after) {job : Job α}
    (hjob : job ∈ after.jobs) {error? : Option TaskError} (hstage : job.stage = .left error?) :
    job ∈ before.jobs ∨ (∃ old ∈ before.jobs, old.stage = .inside none) ∨
      ∃ ending : Ending α, origin.ends? action = some (job.task, ending) ∧
        error? = ending.error? := by
  have hgoOn : ∀ {state : Scheduler α} {moved : Job α} {stage : Stage α},
      (∀ error?, stage ≠ .left error?) → state.jobs = before.jobs →
      job ∈ (state.goOnWith moved stage).jobs → job ∈ before.jobs := by
    intro state moved stage hnot hjobs hmem
    rcases mem_jobs_goOnWith hmem with hold | rfl
    · exact hjobs ▸ hold
    · exact absurd hstage (hnot error?)
  cases hmove with
  | @tookUp position moved worker =>
      rcases List.mem_append.mp hjob with hold | hnew
      · exact Or.inl hold
      · obtain ⟨turn?, hentered⟩ := before.agenda.enter_snd moved worker before.agenda.reading
        rw [hentered, List.mem_singleton] at hnew
        rw [hnew] at hstage
        exact absurd hstage (by simp)
  | skipped hold hinside => exact Or.inr (Or.inl ⟨_, hold, hinside⟩)
  | ended ending hold hinside hcause =>
      rcases mem_jobs_goOnWith hjob with hsame | rfl
      · exact Or.inl hsame
      · exact Or.inr (Or.inr ⟨ending, hcause, (Stage.left.inj hstage).symm⟩)
  | rearmed | requeueRefused => exact Or.inl (hgoOn (by simp) rfl hjob)
  | settled | requeued | dropped | letGo | lostUncounted =>
      exact Or.inl (List.mem_of_mem_filter hjob)
  | _ => exact Or.inl hjob

/-- A task that a worker has left keeps its script and the number of its runs. -/
theorem Move.has_of_left (hmove : Move origin action before after) (hsound : before.Sound)
    {job : Job α} (hjob : job ∈ before.jobs) (hplace : job.place = .running)
    {error? : Option TaskError}
    (hhas : before.Has job.task fun record => error? = (record.script record.runs).ending.error?) :
    after.Has job.task fun record => error? = (record.script record.runs).ending.error? := by
  obtain ⟨record, hrecord, herror⟩ := hhas
  have hnot : job.task ∉ before.backlog :=
    hsound.custody.not_mem_of_mem (hplace ▸ mem_tasksAt_place hjob)
      (by decide : Place.running ≠ .backlog)
  obtain ⟨later, hlater, hevolves⟩ := hmove.recordsEvolve hsound.custody job.task record hrecord
  obtain ⟨same, hsame, hruns⟩ := (hmove.fate hsound.custody job.task).runs_eq hnot hrecord
  obtain rfl := Option.some.inj (hsame.symm.trans hlater)
  refine ⟨same, hlater, ?_⟩
  dsimp only
  rw [hevolves.script_eq, hruns]
  exact herror

theorem Plain.faithful_of_step (hplain : before.Plain)
    (hreachable : Reachable config cores before) (hfaithful : before.Faithful)
    (hstep : before.step action = some after) : after.Faithful := by
  intro job hjob error? hstage
  have hsound := hreachable.sound
  have hmove := hplain.move_of_step hreachable.scripted hstep
  rcases hmove.left_cases hjob hstage with hold | ⟨old, hold, hinside⟩ | ⟨ending, hends, rfl⟩
  · exact hmove.has_of_left hsound hold (by rw [Job.place, hstage])
      (hfaithful job hold error? hstage)
  · obtain ⟨record, -, hturn⟩ := hreachable.scripted old hold none hinside
    exact absurd hturn (by simp)
  · obtain ⟨worker, old, turn, -, hfind, htask, hinside, -, hperform⟩ :=
      exists_inside_of_ends? hends
    have hold := List.mem_of_find?_eq_some hfind
    rw [perform_of_plain (hplain.of_inside hreachable.scripted hold hinside)] at hperform
    obtain ⟨record, hrecord, hturn⟩ := hreachable.scripted old hold _ hinside
    rw [← htask]
    refine hmove.has_of_left hsound hold (by rw [Job.place, hinside]) ⟨record, hrecord, ?_⟩
    dsimp only
    rw [← Option.some.inj hturn, ← hperform]

/-! ## One task that fails -/

/-- How many of the runs of a task that have been settled fail by its script. -/
def faultsOf (scheduler : Scheduler α) (task : TaskId) : Nat :=
  (scheduler.record? task).elim 0 fun record => record.faults (scheduler.settledRuns task)

theorem Plain.faultsOf_of_rests (hplain : before.Plain)
    (hreachable : Reachable config cores before) (hstep : before.step action = some after)
    (hnot : before.completes? action ≠ some task) :
    after.faultsOf task = before.faultsOf task := by
  have hsound := hreachable.sound
  have hafter := hreachable.step action hstep
  unfold faultsOf
  cases hrecord : before.record? task with
  | none =>
      cases hlater : after.record? task with
      | none => rfl
      | some later =>
          -- A task that has just been submitted has not run yet.
          have hmove := hplain.move_of_step hreachable.scripted hstep
          obtain ⟨submission, due, -, -, rfl⟩ :=
            (hmove.fate hsound.custody task).submitted hrecord hlater
          have hentries : after.agenda.entries task = 0 := by
            rw [hafter.tallied, hlater]
            rfl
          rw [settledRuns, hentries, Nat.zero_sub]
          rfl
  | some record =>
      obtain ⟨later, hlater, hevolves⟩ := hsound.recordsEvolve_of_step hstep task record hrecord
      have hbalance := (hsound.rests_of_step hstep hnot).balance
      have hbefore := hreachable.inProgress_le task
      have hle := hafter.inProgress_le task
      have hsettled : after.settledRuns task = before.settledRuns task := by
        unfold settledRuns
        omega
      rw [hlater, hsettled, Option.elim_some, Option.elim_some, Record.faults, Record.faults,
        hevolves.script_eq]

theorem Reachable.faultsOf_of_completes (hreachable : Reachable config cores before)
    (hstep : before.step action = some after) (hcompletes : before.completes? action = some task)
    {record : Record α} (hrecord : before.record? task = some record) :
    after.faultsOf task =
      before.faultsOf task + (record.script record.runs).ending.error?.toList.length := by
  obtain ⟨later, hlater, hevolves⟩ :=
    hreachable.sound.recordsEvolve_of_step hstep task record hrecord
  obtain ⟨⟨-, -, -, -, hentries, hone, hzero⟩, -⟩ :=
    hreachable.sound.settling_of_completes hstep hcompletes
  have hle := hreachable.inProgress_le task
  have hruns : before.agenda.entries task = record.runs := by
    rw [hreachable.tallied, hrecord]
    rfl
  have hbefore : record.runs = before.settledRuns task + 1 := by
    unfold settledRuns
    omega
  have hafter : after.settledRuns task = before.settledRuns task + 1 := by
    unfold settledRuns at hbefore ⊢
    omega
  simp only [faultsOf, hrecord, hlater, Option.elim_some]
  rw [hafter, hbefore, ← Record.faults_succ, Record.faults, Record.faults, hevolves.script_eq]

/-- Only one task has bodies that fail. -/
def OnlyFails (scheduler : Scheduler α) (culprit : TaskId) : Prop :=
  ∀ task record, task ≠ culprit → scheduler.record? task = some record →
    ∀ run, (record.script run).ending.error? = none

/-- The runs that have been settled have been counted and reported as their scripts have it. -/
structure Blamed (culprit : TaskId) (scheduler : Scheduler α) : Prop where
  observed : ∀ task record, scheduler.record? task = some record → scheduler.Observed
  only : scheduler.OnlyFails culprit
  faithful : scheduler.Faithful
  /-- No other task comes to a bad end. -/
  unfailed : ∀ task record, task ≠ culprit → scheduler.record? task = some record →
    record.state ≠ .failed
  failed_eq : scheduler.agenda.metrics.failed = scheduler.faultsOf culprit
  heard_eq : scheduler.agenda.heard = scheduler.agenda.metrics.failed

/-- A run that is settled is counted and reported as its script has it, unless its task is given
up. -/
theorem Blamed.counts_of_completes (hblamed : Blamed culprit before) (hplain : before.Plain)
    (hreachable : Reachable config cores before) (hstep : before.step action = some after)
    (hcompletes : before.completes? action = some task)
    (hkept : ∀ record, before.record? task = some record → ∀ error?,
      (record.schedule.verdict before.agenda.policy record.nextRunAt before.agenda.reading
        error?).reason? = none) :
    after.agenda.metrics.failed = after.faultsOf culprit ∧
      after.agenda.heard = after.agenda.metrics.failed := by
  have hsound := hreachable.sound
  obtain ⟨worker, working, error?, -, hfind, -, -, rfl⟩ := exists_job_of_completes hcompletes
  have hplace := hsound.custody.fitsAt_of_mem (mem_tasksAt_place (List.mem_of_find?_eq_some hfind))
  obtain ⟨record, hrecord⟩ := hplace.exists_record
  have hobserved := hblamed.observed _ record hrecord
  obtain ⟨job, hjob, error?, same, htask, hstage, hsame, hfailed, hheard⟩ :=
    hsound.counts_of_completes hstep hcompletes hobserved
  obtain rfl := Option.some.inj (hsame.symm.trans hrecord)
  have hdue := (hreachable.punctual.job job hjob (by rw [Job.place, hstage])).1
  rw [htask, dueOf_eq_nextRunAt hrecord] at hdue
  rw [hdue, hkept same hrecord] at hheard
  refine ⟨?_, ?_⟩
  · have herror := (htask ▸ hblamed.faithful job hjob error? hstage).holds hrecord
    rw [hfailed, hblamed.failed_eq, herror]
    by_cases hculprit : working.task = culprit
    · rw [← hculprit]
      exact (hreachable.faultsOf_of_completes hstep hcompletes hrecord).symm
    · rw [hblamed.only _ same hculprit hrecord same.runs,
        hplain.faultsOf_of_rests hreachable hstep (by rw [hcompletes]; simpa using hculprit)]
      rfl
  · rw [hheard, hfailed, hblamed.heard_eq]
    rfl

/-- A task whose body does not fail fails only if it is given up. -/
theorem Blamed.not_failed_of_step (hblamed : Blamed culprit before)
    (hreachable : Reachable config cores before) (hstep : before.step action = some after)
    (hother : task ≠ culprit) {record later : Record α}
    (hrecord : before.record? task = some record)
    (hkept : before.completes? action = some task → ∀ error?,
      (record.schedule.verdict before.agenda.policy record.nextRunAt before.agenda.reading
        error?).reason? = none)
    (hlater : after.record? task = some later) : later.state ≠ .failed := by
  have hsound := hreachable.sound
  have hunfailed := hblamed.unfailed task record hother hrecord
  by_cases hcompletes : before.completes? action = some task
  · obtain ⟨@⟨job, error?, hjob, hstage, rfl, hjudged, -⟩, -⟩ :=
      hsound.settling_of_completes hstep hcompletes
    obtain rfl := Option.some.inj ((hjudged record hrecord).symm.trans hlater)
    have herror := (hblamed.faithful job hjob error? hstage).holds hrecord
    rw [hblamed.only job.task record hother hrecord] at herror
    have hdue := (hreachable.punctual.job job hjob (by rw [Job.place, hstage])).1
    rw [dueOf_eq_nextRunAt hrecord] at hdue
    rw [hdue, herror, Record.judged_state]
    split
    · exact Schedule.outcome_ne_failed (hkept hcompletes none)
    · exact hunfailed
  · obtain ⟨same, hsame, hrests⟩ := (hsound.rests_of_step hstep hcompletes).record record hrecord
    obtain rfl := Option.some.inj (hsame.symm.trans hlater)
    intro hfailed
    obtain rfl := hrests.finished (Or.inr hfailed)
    exact hunfailed hfailed

/-- As long as no task is given up, the failures that are counted and reported are those that the
scripts ask for. -/
theorem Blamed.of_step (hblamed : Blamed culprit before) (hplain : before.Plain)
    (hreachable : Reachable config cores before) (hstep : before.step action = some after)
    (hkept : ∀ task record, before.completes? action = some task →
      before.record? task = some record → ∀ error?,
        (record.schedule.verdict before.agenda.policy record.nextRunAt before.agenda.reading
          error?).reason? = none)
    (hnew : ∀ task record, before.record? task = none → after.record? task = some record →
      before.Observed ∧ (task ≠ culprit → ∀ run, (record.script run).ending.error? = none)) :
    Blamed culprit after := by
  have hsound := hreachable.sound
  -- Failures are only counted where a run is completed.
  have hcounts : after.agenda.metrics.failed = after.faultsOf culprit ∧
      after.agenda.heard = after.agenda.metrics.failed := by
    cases hcompletes : before.completes? action with
    | none =>
        obtain ⟨hfailed, hheard⟩ :=
          (hplain.move_of_step hreachable.scripted hstep).counts_eq hsound hcompletes
        rw [hfailed, hheard, hblamed.heard_eq, and_iff_left rfl, hblamed.failed_eq]
        exact (hplain.faultsOf_of_rests hreachable hstep (by rw [hcompletes]; simp)).symm
    | some task =>
        exact hblamed.counts_of_completes hplain hreachable hstep hcompletes
          fun record hrecord => hkept task record hcompletes hrecord
  refine ⟨fun task later hlater => ?_, fun task later hne hlater run => ?_,
    hplain.faithful_of_step hreachable hblamed.faithful hstep, fun task later hne hlater => ?_,
    hcounts.1, hcounts.2⟩
  · refine Observed.of_step ?_ hsound hstep
    cases hrecord : before.record? task with
    | none => exact (hnew task later hrecord hlater).1
    | some record => exact hblamed.observed task record hrecord
  · cases hrecord : before.record? task with
    | none => exact (hnew task later hrecord hlater).2 hne run
    | some record =>
        obtain ⟨found, hfound, hevolves⟩ := hsound.recordsEvolve_of_step hstep task record hrecord
        obtain rfl := Option.some.inj (hfound.symm.trans hlater)
        rw [hevolves.script_eq]
        exact hblamed.only task record hne hrecord run
  · cases hrecord : before.record? task with
    | none =>
        have hmove := hplain.move_of_step hreachable.scripted hstep
        obtain ⟨submission, due, -, -, rfl⟩ :=
          (hmove.fate hsound.custody task).submitted hrecord hlater
        exact TaskState.noConfusion
    | some record =>
        exact hblamed.not_failed_of_step hreachable hstep hne hrecord
          (fun hcompletes => hkept task record hcompletes hrecord) hlater

end Scheduler

end TimedTasks
