import TimedTasks.Proofs.Scheduler.Run

/-!
# Runs that are settled

A move settles one run at most.  If it settles a run of a task, it does to the record what the
verdict on the run says (`Settling`).  If it does not, the record rests (`Rests`): its due time
stays, it does not become pending, and once it has completed or failed nothing about it changes
any more.  Which of the two it is, a step tells by its action (`completes?`).

Either way the entries into the body add up.  A run is in progress from the moment its body is
entered until it is settled, so the runs of a task that are settled are those that have been
entered, less the one that is in progress (`settledRuns`).
-/

namespace TimedTasks

namespace Record

variable {α : Type} {record : Record α}

/-- How a record changes when no run of its task is settled. -/
structure Rests (before after : Record α) : Prop where
  due_eq : after.nextRunAt = before.nextRunAt
  pending : after.state = .pending → before.state = .pending
  finished : after.state = .completed ∨ after.state = .failed → after = before

theorem Rests.refl (record : Record α) : record.Rests record := ⟨rfl, id, fun _ => rfl⟩

theorem Rests.trans {first second third : Record α} (hfirst : first.Rests second)
    (hsecond : second.Rests third) : first.Rests third where
  due_eq := hsecond.due_eq.trans hfirst.due_eq
  pending := fun hpending => hfirst.pending (hsecond.pending hpending)
  finished := by
    intro hfinished
    obtain rfl := hsecond.finished hfinished
    exact hfirst.finished hfinished

theorem Rests.cancelled (record : Record α) : record.Rests { record with state := .cancelled } :=
  ⟨rfl, fun hpending => absurd hpending (by simp), fun hfinished => absurd hfinished (by simp)⟩

theorem Rests.running (record : Record α) : record.Rests { record with state := .running } :=
  ⟨rfl, fun hpending => absurd hpending (by simp), fun hfinished => absurd hfinished (by simp)⟩

theorem IsBusy.not_finished (hbusy : record.IsBusy) :
    ¬ (record.state = .completed ∨ record.state = .failed) := by
  rcases hbusy with hstate | hstate <;> rw [hstate] <;> decide

theorem IsBusy.rests_enter (hbusy : record.IsBusy) : record.Rests record.enter.1 := by
  obtain ⟨bodySpent, henter⟩ := record.enter_fst
  rw [henter]
  exact ⟨rfl, id, fun hfinished => absurd hfinished hbusy.not_finished⟩

theorem IsBusy.rests_leave (hbusy : record.IsBusy) (ending : Ending α) :
    record.Rests (record.leave ending) := by
  obtain ⟨result?, failures, lastError?, hleave⟩ := record.leave_eq ending
  rw [hleave]
  exact ⟨rfl, id, fun hfinished => absurd hfinished hbusy.not_finished⟩

end Record

/-- The task of a lost run whose body has not been entered. -/
def LostRun.unentered? : LostRun → Option TaskId
  | .unentered task => some task
  | .uncounted _ _ => none

/-- The task of a lost run whose body has been entered. -/
def LostRun.uncounted? : LostRun → Option TaskId
  | .unentered _ => none
  | .uncounted task _ => some task

namespace Scheduler

variable {α : Type} {origin before after scheduler : Scheduler α} {action : Action α}
variable {config : Config} {cores : Nat} {task : TaskId}

/-! ## Lost runs -/

/-- The runs that have been lost before their bodies were entered. -/
def unentered (scheduler : Scheduler α) : List TaskId :=
  scheduler.lost.filterMap LostRun.unentered?

/-- The runs that have been lost after their bodies had ended. -/
def uncounted (scheduler : Scheduler α) : List TaskId :=
  scheduler.lost.filterMap LostRun.uncounted?

theorem length_lost (scheduler : Scheduler α) :
    scheduler.lost.length = scheduler.unentered.length + scheduler.uncounted.length := by
  unfold unentered uncounted
  induction scheduler.lost with
  | nil => rfl
  | cons run rest ih =>
      cases run with
      | unentered | uncounted =>
          simp only [List.filterMap_cons, LostRun.unentered?, LostRun.uncounted?, List.length_cons]
          omega

theorem mem_lostTasks_of_unentered (hmem : task ∈ scheduler.unentered) :
    task ∈ scheduler.lostTasks := by
  obtain ⟨run, hrun, hunentered⟩ := List.mem_filterMap.mp hmem
  cases run with
  | unentered lost =>
      obtain rfl := Option.some.inj hunentered
      exact List.mem_map_of_mem hrun
  | uncounted => simp [LostRun.unentered?] at hunentered

theorem mem_lostTasks_of_uncounted (hmem : task ∈ scheduler.uncounted) :
    task ∈ scheduler.lostTasks := by
  obtain ⟨run, hrun, huncounted⟩ := List.mem_filterMap.mp hmem
  cases run with
  | unentered => simp [LostRun.uncounted?] at huncounted
  | uncounted lost =>
      obtain rfl := Option.some.inj huncounted
      exact List.mem_map_of_mem hrun

/-! ## Runs in progress -/

/-- How many runs of a task have been entered and not settled, lost ones included. -/
def inProgress (scheduler : Scheduler α) (task : TaskId) : Nat :=
  (scheduler.tasksAt .running).count task + scheduler.uncounted.count task

/-- How many runs of a task have been settled. -/
def settledRuns (scheduler : Scheduler α) (task : TaskId) : Nat :=
  scheduler.agenda.entries task - scheduler.inProgress task

theorem count_uncounted_eq_zero (hlost : task ∉ before.lostTasks) :
    before.uncounted.count task = 0 :=
  List.count_eq_zero.mpr fun hmem => hlost (mem_lostTasks_of_uncounted hmem)

theorem Custody.inProgress_eq_zero (hcustody : before.Custody) {place : Place}
    (hmem : task ∈ before.tasksAt place) (hne : place ≠ .running) (hlost : place ≠ .lost) :
    before.inProgress task = 0 :=
  Nat.add_eq_zero_iff.mpr ⟨List.count_eq_zero.mpr (hcustody.not_mem_of_mem hmem hne),
    count_uncounted_eq_zero (hcustody.not_mem_of_mem hmem hlost)⟩

theorem Custody.inProgress_eq_one (hcustody : before.Custody)
    (hmem : task ∈ before.tasksAt .running) : before.inProgress task = 1 := by
  have hrunning := (hcustody.located_of_mem hmem .running).trans (if_pos rfl)
  have hlost : task ∉ before.tasksAt .lost := hcustody.not_mem_of_mem hmem (by decide)
  rw [inProgress, hrunning, count_uncounted_eq_zero hlost]

theorem count_uncounted_le (scheduler : Scheduler α) (task : TaskId) :
    scheduler.uncounted.count task ≤ scheduler.lostTasks.count task := by
  unfold uncounted lostTasks
  rw [List.count_filterMap, List.count, List.countP_map]
  refine List.countP_mono_left fun run _ hrun => ?_
  cases run with
  | unentered => simp [LostRun.uncounted?] at hrun
  | uncounted => simpa [LostRun.uncounted?, LostRun.task] using hrun

/-- A task has one run at a time. -/
theorem Custody.inProgress_le_one (hcustody : before.Custody) (task : TaskId) :
    before.inProgress task ≤ 1 := by
  by_cases hrunning : task ∈ before.tasksAt .running
  · exact Nat.le_of_eq (hcustody.inProgress_eq_one hrunning)
  · have hlost : before.lostTasks.count task ≤ 1 := by
      obtain ⟨place?, hlocated, -⟩ := hcustody task
      refine Nat.le_trans (Nat.le_of_eq (hlocated .lost)) ?_
      split <;> decide
    rw [inProgress, List.count_eq_zero.mpr hrunning, Nat.zero_add]
    exact Nat.le_trans (before.count_uncounted_le task) hlost

theorem Staffed.inProgress_release (hstaffed : before.Staffed) {job : Job α}
    (hjob : job ∈ before.jobs) (task : TaskId) :
    before.inProgress task =
      (job.tasksAt .running).count task + (before.release job.worker).inProgress task := by
  have hperm := hstaffed.flatMap_perm hjob (Job.tasksAt .running)
  rw [inProgress, tasksAt, hperm.count_eq, List.count_append, Nat.add_assoc]
  rfl

theorem Staffed.inProgress_goOnWith (hstaffed : before.Staffed) {job : Job α}
    (hjob : job ∈ before.jobs) (stage : Stage α) (task : TaskId) :
    (before.goOnWith job stage).inProgress task =
      (Job.tasksAt .running { job with stage }).count task +
        (before.release job.worker).inProgress task := by
  have hperm := hstaffed.flatMap_goOnWith hjob stage (Job.tasksAt .running)
  rw [inProgress, tasksAt, hperm.count_eq, List.count_append, Nat.add_assoc]
  rfl

theorem count_tasksAt (job : Job α) (place : Place) (task : TaskId) :
    (job.tasksAt place).count task = if job.place = place ∧ job.task = task then 1 else 0 :=
  count_ite_singleton _ _ _

/-! ## Moves that settle no run -/

/-- No run of the task is settled. -/
structure Rests (before after : Scheduler α) (task : TaskId) : Prop where
  record : ∀ record, before.record? task = some record →
    ∃ later, after.record? task = some later ∧ record.Rests later
  balance : after.agenda.entries task + before.inProgress task =
    before.agenda.entries task + after.inProgress task

theorem Rests.of_same (hrecord : after.record? task = before.record? task)
    (hentries : after.agenda.entries task = before.agenda.entries task)
    (hprogress : after.inProgress task = before.inProgress task) : Rests before after task where
  record := fun record hbefore => ⟨record, hrecord.trans hbefore, .refl record⟩
  balance := by rw [hentries, hprogress]

theorem Rests.trans {middle : Scheduler α} (hfirst : Rests before middle task)
    (hsecond : Rests middle after task) : Rests before after task where
  record := by
    intro record hrecord
    obtain ⟨found, hfound, hrests⟩ := hfirst.record record hrecord
    obtain ⟨later, hlater, hfurther⟩ := hsecond.record found hfound
    exact ⟨later, hlater, hrests.trans hfurther⟩
  balance := by
    have hearlier := hfirst.balance
    have hlater := hsecond.balance
    omega

theorem Rests.of_record {moved : TaskId} {record later : Record α}
    (hrecord : before.record? moved = some record)
    (hafter : ∀ other, after.record? other =
      if other = moved then some later else before.record? other)
    (hrests : record.Rests later)
    (hbalance : after.agenda.entries task + before.inProgress task =
      before.agenda.entries task + after.inProgress task) : Rests before after task where
  record := by
    intro found hfound
    rw [hafter]
    by_cases htask : task = moved
    · subst htask
      obtain rfl := Option.some.inj (hrecord.symm.trans hfound)
      exact ⟨later, if_pos rfl, hrests⟩
    · exact ⟨found, (if_neg htask).trans hfound, .refl found⟩
  balance := hbalance

theorem Rests.of_draft {submission : Submission α} {due : Moment}
    (hrecords : after.agenda.records = (before.draft submission due).1.agenda.records)
    (hentries : after.agenda.entries task = before.agenda.entries task)
    (hprogress : after.inProgress task = before.inProgress task) : Rests before after task where
  record := by
    intro record hrecord
    have hne : task ≠ before.agenda.records.size := by
      rintro rfl
      exact absurd (before.record?_size.symm.trans hrecord) (by simp)
    have hafter : after.record? task = (before.draft submission due).1.record? task :=
      congrArg (·[task]?) hrecords
    exact ⟨record, hafter.trans ((record?_draft ..).trans ((if_neg hne).trans hrecord)),
      .refl record⟩
  balance := by rw [hentries, hprogress]

theorem rests_tookUp (hcustody : before.Custody) {position worker : Nat} {moved : TaskId}
    (hmoved : before.backlog[position]? = some moved)
    (hafter : after.agenda = (before.agenda.enter moved worker before.agenda.reading).1)
    (hjobs : after.jobs =
      before.jobs ++ [(before.agenda.enter moved worker before.agenda.reading).2])
    (hlost : after.lost = before.lost) : Rests before after task := by
  obtain ⟨record, run, turn, hrecord, hbody⟩ := hcustody.exists_body hmoved
  have hbacklog : moved ∈ before.tasksAt .backlog := List.mem_of_getElem? hmoved
  obtain ⟨-, hfits⟩ := hcustody.fitsAt_of_mem hbacklog
  obtain ⟨hbusy, -⟩ := hfits.holds hrecord
  have henter := Agenda.enter_eq hrecord hbody worker
  rw [henter] at hafter hjobs
  have hrecords : ∀ other, after.record? other =
      if other = moved then some record.enter.1 else before.record? other := by
    intro other
    rw [record?, hafter]
    exact Agenda.records_withRecord hrecord
  refine .of_record hrecord hrecords hbusy.rests_enter ?_
  have hentries : after.agenda.entries task =
      before.agenda.entries task + if moved = task then 1 else 0 := by
    rw [hafter]
    exact Agenda.entries_note_entered ..
  have hprogress : after.inProgress task =
      before.inProgress task + if moved = task then 1 else 0 := by
    rw [inProgress, uncounted, tasksAt, hjobs, hlost, List.flatMap_append, List.count_append,
      List.flatMap_singleton, count_tasksAt, Nat.add_right_comm]
    simp only [Job.place, true_and]
    rfl
  omega

/-! ## Moves that settle a run -/

/-- A run of the task is settled, and the verdict on it is carried out on the record. -/
inductive Settling (before after : Scheduler α) (task : TaskId) : Prop
  | intro {job : Job α} {error? : Option TaskError} (hjob : job ∈ before.jobs)
      (hstage : job.stage = .left error?) (htask : job.task = task)
      (hrecord : ∀ record, before.record? task = some record →
        after.record? task = some (record.judged
          (record.schedule.verdict before.agenda.policy job.dueAt before.agenda.reading error?)).1)
      (hentries : after.agenda.entries task = before.agenda.entries task)
      (hbefore : before.inProgress task = 1) (hafter : after.inProgress task = 0) :
      Settling before after task

theorem Settling.mem_running (hsettling : Settling before after task) :
    task ∈ before.tasksAt .running := by
  obtain @⟨job, error?, hjob, hstage, rfl, -⟩ := hsettling
  have hplace : job.place = .running := by rw [Job.place, hstage]
  exact hplace ▸ mem_tasksAt_place hjob

/-- What settling comes to for the task of the job. -/
theorem settling_of_settle (hcustody : before.Custody) (hstaffed : before.Staffed) {job : Job α}
    {error? : Option TaskError} {agenda : Agenda α} {again : Bool} (hjob : job ∈ before.jobs)
    (hstage : job.stage = .left error?)
    (hsettle : before.agenda.settle job before.agenda.reading error? = (agenda, again))
    (hagenda : after.agenda = agenda)
    (hprogress : after.inProgress job.task = (before.release job.worker).inProgress job.task) :
    Settling before after job.task := by
  have hplace : job.place = .running := by rw [Job.place, hstage]
  have hmem : job.task ∈ before.tasksAt .running := hplace ▸ mem_tasksAt_place hjob
  obtain ⟨record, hrecord⟩ := (hcustody.fitsAt_of_mem hmem).exists_record
  rw [← hagenda] at hsettle
  have hone := hcustody.inProgress_eq_one hmem
  have hreleased := hstaffed.inProgress_release hjob job.task
  rw [count_tasksAt, if_pos ⟨hplace, rfl⟩] at hreleased
  refine ⟨hjob, hstage, rfl, fun found hfound => ?_, (Agenda.kept_settle hsettle).entries_eq _,
    hone, ?_⟩
  · obtain ⟨hrecords, -⟩ := Agenda.judged_of_settle hfound hsettle
    exact (hrecords job.task).trans (if_pos rfl)
  · rw [hprogress]
    omega

/-- What settling comes to for all other tasks. -/
theorem rests_of_settle (hcustody : before.Custody) (hstaffed : before.Staffed) {job : Job α}
    {error? : Option TaskError} {agenda : Agenda α} {again : Bool} (hjob : job ∈ before.jobs)
    (hsettle : before.agenda.settle job before.agenda.reading error? = (agenda, again))
    (hagenda : after.agenda = agenda)
    (hprogress : after.inProgress task = (before.release job.worker).inProgress task)
    (htask : job.task ≠ task) : Rests before after task := by
  obtain ⟨record, hrecord⟩ := (hcustody.fitsAt_of_mem (mem_tasksAt_place hjob)).exists_record
  rw [← hagenda] at hsettle
  obtain ⟨hrecords, -⟩ := Agenda.judged_of_settle hrecord hsettle
  have hreleased := hstaffed.inProgress_release hjob task
  rw [count_tasksAt, if_neg fun h => htask h.2, Nat.zero_add] at hreleased
  exact .of_same ((hrecords task).trans (if_neg (Ne.symm htask)))
    ((Agenda.kept_settle hsettle).entries_eq task) (hprogress.trans hreleased.symm)

/-- A run that has been settled is in progress no more, also if the task is to go back. -/
theorem Staffed.inProgress_rearmed (hstaffed : before.Staffed) {job : Job α}
    (hjob : job ∈ before.jobs) (task : TaskId) :
    (before.goOnWith job .rearmed).inProgress task =
      (before.release job.worker).inProgress task := by
  have hgoOn := hstaffed.inProgress_goOnWith hjob .rearmed task
  rw [count_tasksAt, if_neg (by simp [Job.place]), Nat.zero_add] at hgoOn
  exact hgoOn

/-! ## All moves -/

theorem inProgress_goOnWith_same (hstaffed : before.Staffed) {job : Job α}
    (hjob : job ∈ before.jobs) {stage : Stage α}
    (hplace : Job.place { job with stage } = job.place) (task : TaskId) :
    (before.goOnWith job stage).inProgress task = before.inProgress task := by
  have hgoOn := hstaffed.inProgress_goOnWith hjob stage task
  have hreleased := hstaffed.inProgress_release hjob task
  rw [count_tasksAt, hplace] at hgoOn
  rw [count_tasksAt] at hreleased
  exact hgoOn.trans hreleased.symm

theorem inProgress_release_same (hstaffed : before.Staffed) {job : Job α}
    (hjob : job ∈ before.jobs) (hplace : job.place = .returning) (task : TaskId) :
    (before.release job.worker).inProgress task = before.inProgress task := by
  have hreleased := hstaffed.inProgress_release hjob task
  rw [count_tasksAt, hplace, if_neg (by simp), Nat.zero_add] at hreleased
  exact hreleased.symm

/-- A run that is lost after it has been entered stays in progress. -/
theorem inProgress_lostUncounted (hstaffed : before.Staffed) {job : Job α}
    (hjob : job ∈ before.jobs) {error? : Option TaskError} (hstage : job.stage = .left error?)
    (task : TaskId) :
    (Scheduler.release { before with lost := .uncounted job.task error? :: before.lost }
      job.worker).inProgress task = before.inProgress task := by
  have hreleased := hstaffed.inProgress_release hjob task
  rw [count_tasksAt] at hreleased
  simp only [Job.place, hstage, true_and, inProgress, uncounted, tasksAt, release,
    List.filterMap_cons,
    LostRun.uncounted?, List.count_cons, beq_iff_eq] at hreleased ⊢
  omega

theorem Move.completes_or_rests (hmove : Move origin action before after) (hsound : before.Sound)
    (task : TaskId) :
    origin.completes? action = some task ∧ Settling before after task ∨
      Rests before after task := by
  have hcustody := hsound.custody
  have hstaffed := hsound.staffed
  -- Only the moves that settle a job complete a run, and only that of its own task.
  cases hmove with
  | drafted | submittedInVain | submitted => exact Or.inr (.of_draft rfl rfl rfl)
  | cancelBegun _ hrecord | cancelledInBody _ hrecord | swept _ hrecord =>
      exact Or.inr (.of_record hrecord (record?_withRecord hrecord _) (.cancelled _) rfl)
  | started _ _ hrecord =>
      exact Or.inr (.of_record hrecord (record?_withRecord hrecord _) (.running _) rfl)
  | tookUp htask => exact Or.inr (rests_tookUp hcustody htask rfl rfl rfl)
  | lostUncounted hjob hstage =>
      exact Or.inr (.of_same rfl rfl (inProgress_lostUncounted hstaffed hjob hstage task))
  | @skipped job hjob hstage =>
      have hplace : Job.place { job with stage := (.left none : Stage α) } = job.place := by
        rw [Job.place, Job.place, hstage]
      exact Or.inr (.of_same rfl rfl (inProgress_goOnWith_same hstaffed hjob hplace task))
  | @requeueRefused job hjob hstage =>
      have hplace : Job.place { job with stage := (.refused : Stage α) } = job.place := by
        rw [Job.place, Job.place, hstage]
      exact Or.inr (.of_same rfl rfl (inProgress_goOnWith_same hstaffed hjob hplace task))
  | @ended job _ ending hjob hstage =>
      have hplace : job.place = .running := by rw [Job.place, hstage]
      obtain ⟨-, hfits⟩ := hcustody.fitsAt_of_mem (hplace ▸ mem_tasksAt_place hjob)
      obtain ⟨record, hrecord, hbusy, -⟩ := hfits
      have hprogress := inProgress_goOnWith_same hstaffed hjob
        (show Job.place { job with stage := .left ending.error? } = job.place from hplace.symm) task
      refine Or.inr (.of_record hrecord (Agenda.records_update hrecord _)
        (hbusy.rests_leave ending) ?_)
      exact congrArg (before.agenda.entries task + ·) hprogress.symm
  | @settled job _ _ hjob hstage hsettle hcause =>
      obtain ⟨rfl, hcompletes⟩ := hcause
      by_cases htask : job.task = task
      · subst htask
        exact Or.inl ⟨hcompletes, settling_of_settle hcustody hstaffed hjob hstage hsettle rfl rfl⟩
      · exact Or.inr (rests_of_settle hcustody hstaffed hjob hsettle rfl rfl htask)
  | @rearmed job _ _ hjob hstage hsettle hcause =>
      obtain ⟨rfl, hcompletes⟩ := hcause
      have hprogress := hstaffed.inProgress_rearmed hjob
      by_cases htask : job.task = task
      · subst htask
        exact Or.inl ⟨hcompletes,
          settling_of_settle hcustody hstaffed hjob hstage hsettle rfl (hprogress job.task)⟩
      · exact Or.inr (rests_of_settle hcustody hstaffed hjob hsettle rfl (hprogress task) htask)
  | @requeued job hjob hstage | @letGo job hjob hstage =>
      have hplace : job.place = .returning := by rw [Job.place, hstage]
      exact Or.inr (.of_same rfl rfl (inProgress_release_same hstaffed hjob hplace task))
  | @dropped job record hjob hstage hrecord =>
      have hplace : job.place = .returning := by rw [Job.place, hstage]
      refine Or.inr (.of_record hrecord (record?_withRecord hrecord _) (.cancelled _) ?_)
      exact congrArg (before.agenda.entries task + ·)
        (inProgress_release_same hstaffed hjob hplace task).symm
  | _ => exact Or.inr (.of_same rfl rfl rfl)

theorem Move.settling_or_rests (hmove : Move origin action before after) (hsound : before.Sound)
    (task : TaskId) : Settling before after task ∨ Rests before after task :=
  (hmove.completes_or_rests hsound task).imp_left And.right

/-! ## All steps -/

theorem exists_job_of_completes (hcompletes : before.completes? action = some task) :
    ∃ worker job error?, action = .work worker ∧
      (before.jobs.find? fun job => job.worker == worker) = some job ∧
      job.stage = .left error? ∧ before.agenda.clock.isReadable = true ∧ job.task = task := by
  unfold completes? at hcompletes
  split at hcompletes
  · rename_i worker
    split at hcompletes
    · rename_i job hfind
      split at hcompletes
      · rename_i error? hstage
        split at hcompletes
        · rename_i hreadable
          exact ⟨worker, job, error?, rfl, hfind, hstage, hreadable, Option.some.inj hcompletes⟩
        · simp at hcompletes
      · simp at hcompletes
    · simp at hcompletes
  · simp at hcompletes

/-- A step that completes a run settles it in a single move. -/
theorem Sound.settling_of_completes (hsound : before.Sound)
    (hstep : before.step action = some after)
    (hcompletes : before.completes? action = some task) :
    Settling before after task ∧ Move before action before after := by
  obtain ⟨worker, job, error?, rfl, hfind, hstage, hreadable, rfl⟩ :=
    exists_job_of_completes hcompletes
  have hjob := List.mem_of_find?_eq_some hfind
  simp only [step, hfind, work, hstage, Agenda.now_of_readable hreadable] at hstep
  split at hstep
  · rename_i agenda hsettle
    obtain rfl := Option.some.inj hstep
    exact ⟨settling_of_settle hsound.custody hsound.staffed hjob hstage hsettle rfl
      (hsound.staffed.inProgress_rearmed hjob job.task),
      .rearmed hjob hstage hsettle ⟨rfl, hcompletes⟩ hreadable⟩
  · rename_i agenda hsettle
    obtain rfl := Option.some.inj hstep
    exact ⟨settling_of_settle hsound.custody hsound.staffed hjob hstage hsettle rfl rfl,
      .settled hjob hstage hsettle ⟨rfl, hcompletes⟩ hreadable⟩

/-- A step that completes no run of a task settles none. -/
theorem Sound.rests_of_step (hsound : before.Sound) (hstep : before.step action = some after)
    (hnot : before.completes? action ≠ some task) : Rests before after task := by
  refine Scheduler.of_step (p := fun state => Rests before state task) hsound hstep
    (.of_same rfl rfl rfl) fun first second hfirst hrests hmove => ?_
  rcases hmove.completes_or_rests hfirst task with ⟨hcompletes, -⟩ | hfurther
  · exact absurd hcompletes hnot
  · exact hrests.trans hfurther

/-! ## What is settled -/

theorem Move.inProgress_le (hmove : Move origin action before after) (hsound : before.Sound)
    (hle : before.inProgress task ≤ before.agenda.entries task) :
    after.inProgress task ≤ after.agenda.entries task := by
  rcases hmove.settling_or_rests hsound task with ⟨-, -, -, -, -, -, hafter⟩ | hrests
  · rw [hafter]
    exact Nat.zero_le _
  · have hbalance := hrests.balance
    omega

theorem Reachable.inProgress_le (hreachable : Reachable config cores scheduler) (task : TaskId) :
    scheduler.inProgress task ≤ scheduler.agenda.entries task := by
  refine hreachable.induction_on_moves
    (p := fun state => state.inProgress task ≤ state.agenda.entries task) ?_
    fun _ _ _ _ hsound hle hmove => hmove.inProgress_le hsound hle
  intro first hcreated
  obtain rfl := new_eq_ok hcreated
  exact Nat.zero_le _

theorem Reachable.settledRuns_add (hreachable : Reachable config cores scheduler) (task : TaskId) :
    scheduler.settledRuns task + scheduler.inProgress task = scheduler.agenda.entries task :=
  Nat.sub_add_cancel (hreachable.inProgress_le task)

end Scheduler

end TimedTasks
