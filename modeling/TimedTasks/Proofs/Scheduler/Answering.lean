import TimedTasks.Proofs.Scheduler.Starting
import TimedTasks.Session.Basic

/-!
# What the holder of a task gets

The result of a one-shot task is stored when its body ends, and the task itself comes to its end
some steps later; in between it may be cancelled.  Whoever asks for the result looks at the two
at different moments as well.

`Answers` ties the record of the task and the worker that has it to how the body has ended, if it
has.  Every move keeps this, except for the one in which the body ends (`Move.answers`).  So in
each state the result and the last error are those of the one run that there was.  Once the task
is settled, what there is to get stays the same (`Leads.get?_eq`), and with that it does not
matter at which moments somebody looks (`Fetch`).
-/

namespace TimedTasks

theorem Ending.exists_value {α : Type} {ending : Ending α} (hnone : ending.error? = none) :
    ∃ value, ending = .value value := by
  cases ending with
  | value value => exact ⟨value, rfl⟩
  | error | panic => simp [error?] at hnone

theorem Record.resultOf_of_error {α : Type} {ending : Ending α} {error : TaskError}
    (herror : ending.error? = some error) : resultOf ending = .error error := by
  cases ending with
  | value => simp [Ending.error?] at herror
  | error | panic => exact congrArg Except.error (Option.some.inj herror)

/-- How a record changes when no body of its task ends: what is said of the ending of a one-shot
task stays. -/
structure Record.Retains {α : Type} (before after : Record α) : Prop where
  result_eq : after.result? = before.result?
  error_eq : before.isPeriodic = false → after.lastError? = before.lastError?

namespace Record.Retains

variable {α : Type} (record : Record α)

theorem refl : record.Retains record := ⟨rfl, fun _ => rfl⟩

theorem moved (state : TaskState) : record.Retains { record with state } := ⟨rfl, fun _ => rfl⟩

theorem enter : record.Retains record.enter.1 := by
  obtain ⟨bodySpent, henter⟩ := record.enter_fst
  rw [henter]
  exact ⟨rfl, fun _ => rfl⟩

theorem judged (policy : FailurePolicy) (dueAt completedAt : Moment)
    (error? : Option TaskError) :
    record.Retains
      (record.judged (record.schedule.verdict policy dueAt completedAt error?)).1 where
  result_eq := record.judged_result? _
  error_eq := by
    intro honce
    rw [Schedule.verdict_of_once honce]
    exact record.judged_finish_lastError? _

end Record.Retains

/-- Whoever asks for a result and does not have to wait leaves a session as it is. -/
theorem Session.eq_of_ask_get {α : Type} {session after : Session α} {name : String}
    {limit? : Option Span} {reply : Reply α}
    (hask : session.ask (.get name limit?) = (after, reply)) (hreply : reply ≠ .waiting) :
    after = session := by
  have hwaiter : ∀ waiter, session.replyOrWait waiter = (after, reply) → after = session := by
    intro waiter hwait
    unfold replyOrWait at hwait
    split at hwait
    · exact (Prod.mk.inj hwait).1.symm
    · exact absurd (Prod.mk.inj hwait).2.symm hreply
  simp only [ask, onTask] at hask
  split at hask
  · split at hask
    · split at hask
      · exact hwaiter _ hask
      · exact (Prod.mk.inj hask).1.symm
    · exact hwaiter _ hask
  · exact (Prod.mk.inj hask).1.symm

namespace Scheduler

variable {α : Type} {origin before after scheduler : Scheduler α} {action : Action α}
variable {config : Config} {cores : Nat} {past : List (Scheduler α × Action α)} {task : TaskId}
variable {ending? : Option (Ending α)}

/-! ## Moves in which a body ends, and all others -/

/-- The body that a worker is in ends. -/
structure Ends (origin : Scheduler α) (action : Action α) (before : Scheduler α) (job : Job α)
    (ending : Ending α) (after : Scheduler α) : Prop where
  mem : job ∈ before.jobs
  stage : ∃ turn?, job.stage = .inside turn?
  cause : origin.ends? action = some (job.task, ending)
  jobs_eq : after.jobs = (before.goOnWith job (.left ending.error?)).jobs
  record_eq : ∀ record, before.record? job.task = some record →
    after.record? job.task = some (record.leave ending)
  other_eq : ∀ other, other ≠ job.task → after.record? other = before.record? other

/-- No body ends. -/
structure Retains (before after : Scheduler α) : Prop where
  record : ∀ task record later, before.record? task = some record →
    after.record? task = some later → record.Retains later
  left : ∀ job ∈ after.jobs, ∀ error?, job.stage = .left error? →
    job ∈ before.jobs ∨ ∃ earlier ∈ before.jobs, earlier.stage = .inside none

theorem retains_of_record {moved : TaskId} {record later : Record α}
    (hrecord : before.record? moved = some record)
    (hafter : ∀ other, after.record? other =
      if other = moved then some later else before.record? other)
    (hretains : record.Retains later)
    (hleft : ∀ job ∈ after.jobs, ∀ error?, job.stage = .left error? → job ∈ before.jobs) :
    Retains before after where
  record := by
    intro task found next hfound hnext
    rw [hafter] at hnext
    split at hnext
    · rename_i htask
      subst htask
      obtain rfl := Option.some.inj (hrecord.symm.trans hfound)
      obtain rfl := Option.some.inj hnext
      exact hretains
    · obtain rfl := Option.some.inj (hfound.symm.trans hnext)
      exact .refl found
  left := fun job hjob error? hstage => Or.inl (hleft job hjob error? hstage)

theorem retains_of_draft {submission : Submission α} {due : Moment}
    (hrecords : after.agenda.records = (before.draft submission due).1.agenda.records)
    (hjobs : after.jobs = before.jobs) : Retains before after where
  record := by
    intro task record later hrecord hlater
    have hne : task ≠ before.agenda.records.size := by
      rintro rfl
      exact absurd (before.record?_size.symm.trans hrecord) (by simp)
    have hafter : after.record? task = (before.draft submission due).1.record? task :=
      congrArg (·[task]?) hrecords
    rw [hafter, record?_draft, if_neg hne, hrecord] at hlater
    obtain rfl := Option.some.inj hlater
    exact .refl record
  left := fun _ hjob _ _ => Or.inl (hjobs ▸ hjob)

theorem retains_of_same (hrecords : after.agenda.records = before.agenda.records)
    (hleft : ∀ job ∈ after.jobs, ∀ error?, job.stage = .left error? →
      job ∈ before.jobs ∨ ∃ earlier ∈ before.jobs, earlier.stage = .inside none) :
    Retains before after where
  record := by
    intro task record later hrecord hlater
    have hsame : after.record? task = before.record? task := congrArg (·[task]?) hrecords
    obtain rfl := Option.some.inj ((hrecord.symm.trans hsame.symm).trans hlater)
    exact .refl record
  left := hleft

theorem Move.ends_or_retains (hmove : Move origin action before after) (hsound : before.Sound) :
    (∃ job ending, Ends origin action before job ending after) ∨ Retains before after := by
  have hcustody := hsound.custody
  -- Unless it is left, the stage that a job has gone on to does not matter.
  have hgoOn : ∀ {scheduler : Scheduler α} {current : Job α} {stage : Stage α},
      (∀ error?, stage ≠ .left error?) → scheduler.jobs = before.jobs →
      ∀ job ∈ (scheduler.goOnWith current stage).jobs, ∀ error?, job.stage = .left error? →
        job ∈ before.jobs := by
    intro scheduler current stage hother hsame job hjob error? hstage
    rcases mem_jobs_goOnWith hjob with hold | rfl
    · exact hsame ▸ hold
    · exact absurd hstage (hother error?)
  cases hmove with
  | @ended job turn ending hjob hstage hcause =>
      refine Or.inl ⟨job, ending, hjob, ⟨_, hstage⟩, hcause, rfl, fun record hrecord => ?_,
        fun other hother => ?_⟩
      · exact (Agenda.records_update hrecord _ job.task).trans (if_pos rfl)
      · obtain ⟨record, hrecord⟩ :=
          (hcustody.fitsAt_of_mem (mem_tasksAt_place hjob)).exists_record
        exact (Agenda.records_update hrecord _ other).trans (if_neg hother)
  | drafted | submittedInVain | submitted => exact Or.inr (retains_of_draft rfl rfl)
  | cancelBegun _ hrecord | cancelledInBody _ hrecord | swept _ hrecord | started _ _ hrecord =>
      exact Or.inr (retains_of_record hrecord (record?_withRecord hrecord _) (.moved _ _)
        fun _ hjob _ _ => hjob)
  | dropped _ _ hrecord =>
      exact Or.inr (retains_of_record hrecord (record?_withRecord hrecord _) (.moved _ _)
        fun _ hjob _ _ => List.mem_of_mem_filter hjob)
  | @tookUp position moved worker htask =>
      obtain ⟨record, run, turn, hrecord, hbody⟩ := hcustody.exists_body htask
      rw [Agenda.enter_eq hrecord hbody worker]
      refine Or.inr (retains_of_record hrecord (fun _ => Agenda.records_withRecord hrecord)
        (.enter record) fun job hjob error? hstage => ?_)
      rcases List.mem_append.mp hjob with hold | hnew
      · exact hold
      · rw [List.mem_singleton.mp hnew] at hstage
        simp at hstage
  | @settled job error? agenda hjob hstage hsettle =>
      obtain ⟨record, hrecord⟩ := (hcustody.fitsAt_of_mem (mem_tasksAt_place hjob)).exists_record
      obtain ⟨hrecords, -⟩ := Agenda.judged_of_settle hrecord hsettle
      exact Or.inr (retains_of_record hrecord hrecords (.judged ..)
        fun _ hother _ _ => List.mem_of_mem_filter hother)
  | @rearmed job error? agenda hjob hstage hsettle =>
      obtain ⟨record, hrecord⟩ := (hcustody.fitsAt_of_mem (mem_tasksAt_place hjob)).exists_record
      obtain ⟨hrecords, -⟩ := Agenda.judged_of_settle hrecord hsettle
      exact Or.inr (retains_of_record hrecord hrecords (.judged ..) (hgoOn (by simp) rfl))
  | @skipped job hjob hstage =>
      refine Or.inr (retains_of_same rfl fun other hother error? hleft => ?_)
      exact (mem_jobs_goOnWith hother).imp_right fun _ => ⟨job, hjob, hstage⟩
  | requeueRefused =>
      exact Or.inr (retains_of_same rfl fun job hjob error? hstage =>
        Or.inl (hgoOn (by simp) rfl job hjob error? hstage))
  | requeued | letGo | lostUncounted =>
      exact Or.inr (retains_of_same rfl fun _ hjob _ _ => Or.inl (List.mem_of_mem_filter hjob))
  | _ => exact Or.inr (retains_of_same rfl fun _ hjob _ _ => Or.inl hjob)

/-! ## The invariant -/

/-- A task has one worker in its body at most. -/
theorem Sound.job_unique (hsound : before.Sound) {first second : Job α}
    (hfirst : first ∈ before.jobs) (hsecond : second ∈ before.jobs)
    (hplace : first.place = .running) (hother : second.place = .running)
    (htask : second.task = first.task) : second = first := by
  have hone : before.inProgress first.task = 1 :=
    Custody.inProgress_eq_one hsound.custody (hplace ▸ mem_tasksAt_place hfirst)
  have hreleased := hsound.staffed.inProgress_release hfirst first.task
  rw [count_tasksAt, if_pos ⟨hplace, rfl⟩, hone] at hreleased
  by_cases hworker : second.worker = first.worker
  · exact List.inj_on_of_nodup_map hsound.staffed hsecond hfirst hworker
  · have hkept : second ∈ (before.release first.worker).jobs :=
      List.mem_filter.mpr ⟨hsecond, by simpa using hworker⟩
    have hmem := mem_tasksAt_place hkept
    rw [hother, htask] at hmem
    have hpositive : 0 < (before.release first.worker).inProgress first.task :=
      Nat.add_pos_left (List.count_pos_iff.mpr hmem) _
    omega

/-- How a one-shot task and its body stand that has ended in some way, if it has. -/
structure Answers (ending? : Option (Ending α)) (task : TaskId) (scheduler : Scheduler α)
    (record : Record α) : Prop where
  isOnce : record.isPeriodic = false
  result_eq : record.result? = ending?.map Record.resultOf
  error_eq : record.lastError? = ending?.bind Ending.error?
  completed : record.state = .completed → ∃ value, ending? = some (.value value)
  failed : record.state = .failed →
    ∃ ending error, ending? = some ending ∧ ending.error? = some error
  fresh : record.runs = 0 → ending? = none
  inside : ∀ job ∈ scheduler.jobs, job.task = task → ∀ turn?, job.stage = .inside turn? →
    ending? = none
  left : ∀ job ∈ scheduler.jobs, job.task = task → ∀ error?, job.stage = .left error? →
    ∃ ending, ending? = some ending ∧ error? = ending.error?

/-- A move in which the body does not end keeps how everything stands. -/
theorem Move.answers_of_retains (hmove : Move origin action before after) (hsound : before.Sound)
    {record later : Record α} (hrecord : before.record? task = some record)
    (hlater : after.record? task = some later) (hretains : record.Retains later)
    (hleft : ∀ job ∈ after.jobs, job.task = task → ∀ error?, job.stage = .left error? →
      ∃ ending, ending? = some ending ∧ error? = ending.error?)
    (hanswers : Answers ending? task before record) : Answers ending? task after later := by
  have hcustody : before.Custody := hsound.custody
  obtain ⟨found, hfound, hevolves⟩ := hmove.recordsEvolve hcustody task record hrecord
  obtain rfl := Option.some.inj (hfound.symm.trans hlater)
  -- How a task has completed or failed is up to the body, also if this is the move that settles it.
  have hfinished : (found.state = .completed → ∃ value, ending? = some (.value value)) ∧
      (found.state = .failed → ∃ ending error, ending? = some ending ∧
        ending.error? = some error) := by
    rcases hmove.settling_or_rests hsound task with hsettling | hrests
    · obtain @⟨job, error?, hjob, hstage, htask, hjudged, -⟩ := hsettling
      obtain ⟨ending, rfl, rfl⟩ := hanswers.left job hjob htask error? hstage
      obtain rfl := Option.some.inj ((hjudged record hrecord).symm.trans hlater)
      rw [Schedule.verdict_of_once hanswers.isOnce, Record.judged_state]
      split
      · cases herror : ending.error? with
        | none =>
            obtain ⟨value, rfl⟩ := Ending.exists_value herror
            exact ⟨fun _ => ⟨value, rfl⟩, fun hfailed => by simp [Verdict.outcome] at hfailed⟩
        | some error =>
            exact ⟨fun hcompleted => by simp [Verdict.outcome] at hcompleted,
              fun _ => ⟨ending, error, rfl, herror⟩⟩
      · exact ⟨hanswers.completed, hanswers.failed⟩
    · obtain ⟨same, hsame, hrest⟩ := hrests.record record hrecord
      obtain rfl := Option.some.inj (hsame.symm.trans hlater)
      constructor
      · intro hcompleted
        obtain rfl := hrest.finished (Or.inl hcompleted)
        exact hanswers.completed hcompleted
      · intro hfailed
        obtain rfl := hrest.finished (Or.inr hfailed)
        exact hanswers.failed hfailed
  refine ⟨hevolves.isPeriodic_eq.trans hanswers.isOnce, hretains.result_eq.trans hanswers.result_eq,
    (hretains.error_eq hanswers.isOnce).trans hanswers.error_eq, hfinished.1, hfinished.2,
    fun hzero => ?_, fun job hjob htask turn? hstage => ?_, hleft⟩
  · exact hanswers.fresh (Nat.le_zero.mp (hzero ▸ hevolves.runs_le))
  · rcases hmove.inside_cases hjob hstage with hold | ⟨position, worker, hbacklog, -⟩
    · exact hanswers.inside job hold htask turn? hstage
    · rw [htask] at hbacklog
      have hmem : task ∈ before.tasksAt .backlog := List.mem_of_getElem? hbacklog
      obtain ⟨-, hfits⟩ := hcustody.fitsAt_of_mem hmem
      obtain ⟨-, hfresh⟩ := hfits.holds hrecord
      exact hanswers.fresh (hfresh hanswers.isOnce).1

/-- When the body of a task ends, its result is stored, and its worker leaves it with its error. -/
theorem Ends.answers {job : Job α} {ending : Ending α}
    (hends : Ends origin action before job ending after)
    (hmove : Move origin action before after) (hsound : before.Sound) {record : Record α}
    (hrecord : before.record? job.task = some record)
    (hanswers : Answers ending? job.task before record) :
    ending? = none ∧ Answers (some ending) job.task after (record.leave ending) := by
  obtain ⟨turn?, hstage⟩ := hends.stage
  obtain rfl := hanswers.inside job hends.mem rfl turn? hstage
  refine ⟨rfl, ?_⟩
  have hplace : job.place = .running := by rw [Job.place, hstage]
  have hcustody : before.Custody := hsound.custody
  obtain ⟨-, hfits⟩ := hcustody.fitsAt_of_mem (hplace ▸ mem_tasksAt_place hends.mem)
  obtain ⟨-, hrun⟩ := hfits.holds hrecord
  obtain ⟨result?, failures, lastError?, hleave⟩ := record.leave_eq ending
  have hstate : (record.leave ending).state = record.state := by rw [hleave]
  have hruns : (record.leave ending).runs = record.runs := by rw [hleave]
  have hleft : { job with stage := .left ending.error? } ∈ after.jobs := by
    rw [hends.jobs_eq]
    exact List.mem_map.mpr ⟨job, hends.mem, if_pos rfl⟩
  -- There is no other worker in the body of the task.
  have honly : ∀ other ∈ after.jobs, other.task = job.task → other.place = .running →
      other.stage = .left ending.error? := by
    intro other hother htask hplace
    rw [(hmove.sound hsound).job_unique hleft hother rfl hplace htask]
  refine ⟨(record.leave_evolves ending).isPeriodic_eq.trans hanswers.isOnce,
    record.leave_result? hanswers.isOnce ending, ?_, fun hcompleted => ?_, fun hfailed => ?_,
    fun hzero => ?_, fun other hother htask turn? hinside => ?_,
    fun other hother htask error? herror => ?_⟩
  · rw [Record.leave_lastError?, hanswers.error_eq]
    exact Option.or_none
  · obtain ⟨value, hnone⟩ := hanswers.completed (hstate.symm.trans hcompleted)
    simp at hnone
  · obtain ⟨_, _, hnone, -⟩ := hanswers.failed (hstate.symm.trans hfailed)
    simp at hnone
  · rw [hruns, hrun hanswers.isOnce] at hzero
    exact absurd hzero (by decide)
  · have hsame := honly other hother htask (by rw [Job.place, hinside])
    exact absurd (hinside.symm.trans hsame) (by simp)
  · have hsame := honly other hother htask (by rw [Job.place, herror])
    exact ⟨ending, rfl, Stage.left.inj (herror.symm.trans hsame)⟩

theorem Move.answers (hmove : Move origin action before after) (hsound : before.Sound)
    (hscripted : before.Scripted) (hanswers : before.Has task (Answers ending? task before)) :
    (∃ ending, origin.ends? action = some (task, ending) ∧ ending? = none ∧
      after.Has task (Answers (some ending) task after)) ∨
    after.Has task (Answers ending? task after) := by
  obtain ⟨record, hrecord, hanswers⟩ := hanswers
  rcases hmove.ends_or_retains hsound with ⟨job, ending, hends⟩ | hretains
  · by_cases htask : task = job.task
    · subst htask
      obtain ⟨hnone, hafter⟩ := hends.answers hmove hsound hrecord hanswers
      exact Or.inl ⟨ending, hends.cause, hnone, _, hends.record_eq record hrecord, hafter⟩
    · have hlater := (hends.other_eq task htask).trans hrecord
      refine Or.inr ⟨record, hlater,
        hmove.answers_of_retains hsound hrecord hlater (.refl record) ?_ hanswers⟩
      intro other hother hsame error? hstage
      rw [hends.jobs_eq] at hother
      rcases mem_jobs_goOnWith hother with hold | rfl
      · exact hanswers.left other hold hsame error? hstage
      · exact absurd hsame.symm htask
  · obtain ⟨later, hlater, -⟩ := hmove.recordsEvolve hsound.custody task record hrecord
    refine Or.inr ⟨later, hlater, hmove.answers_of_retains hsound hrecord hlater
      (hretains.record task record later hrecord hlater) ?_ hanswers⟩
    intro job hjob htask error? hstage
    rcases hretains.left job hjob error? hstage with hold | ⟨earlier, hearlier, hinside⟩
    · exact hanswers.left job hold htask error? hstage
    · -- There is always a body to enter.
      obtain ⟨_, -, hrun⟩ := hscripted earlier hearlier none hinside
      simp at hrun

/-! ## From the new scheduler on -/

/-- How a task and its body stand, if there is such a task and it is a one-shot. -/
def Answered (ending? : Option (Ending α)) (task : TaskId) (scheduler : Scheduler α) : Prop :=
  (scheduler.record? task = none → ending? = none) ∧
    ∀ record, scheduler.record? task = some record → record.isPeriodic = false →
      Answers ending? task scheduler record

/-- There is nothing to say of the body of a new task. -/
theorem Move.answers_of_new (hmove : Move origin action before after) (hsound : before.Sound)
    (hnone : before.record? task = none) {record : Record α}
    (hrecord : after.record? task = some record) (honce : record.isPeriodic = false) :
    Answers none task after record := by
  have hlocated := hsound.custody.located_none hnone
  have hidle : task ∉ after.tasksAt .running := by
    intro hmem
    rcases hmove.running_cases hmem with hrunning | ⟨-, hbacklog⟩
    · exact absurd (hlocated.eq_of_mem hrunning) (by simp)
    · have hwaits : task ∈ before.tasksAt .backlog := hbacklog
      exact absurd (hlocated.eq_of_mem hwaits) (by simp)
  obtain ⟨submission, due, -, -, rfl⟩ :=
    (hmove.fate hsound.custody task).submitted hnone hrecord
  refine ⟨honce, rfl, rfl, fun hcompleted => ?_, fun hfailed => ?_, fun _ => rfl,
    fun _ _ _ _ _ => rfl, fun job hjob htask error? hstage => ?_⟩
  · simp [Submission.record] at hcompleted
  · simp [Submission.record] at hfailed
  · have hplace : job.place = .running := by rw [Job.place, hstage]
    exact absurd (htask ▸ hplace ▸ mem_tasksAt_place hjob) hidle

theorem Move.answered (hmove : Move origin action before after) (hsound : before.Sound)
    (hscripted : before.Scripted) (hanswered : Answered ending? task before) :
    (∃ ending, origin.ends? action = some (task, ending) ∧ ending? = none ∧
      Answered (some ending) task after) ∨ Answered ending? task after := by
  cases hrecord : before.record? task with
  | none =>
      obtain rfl := hanswered.1 hrecord
      exact Or.inr ⟨fun _ => rfl, fun _ => hmove.answers_of_new hsound hrecord⟩
  | some record =>
      obtain ⟨later, hlater, hevolves⟩ := hmove.recordsEvolve hsound.custody task record hrecord
      have hsome : after.record? task ≠ none := by rw [hlater]; simp
      cases hperiodic : record.isPeriodic with
      | true =>
          refine Or.inr ⟨fun hnone => absurd hnone hsome, fun found hfound honce => ?_⟩
          obtain rfl := Option.some.inj (hlater.symm.trans hfound)
          exact absurd (honce.symm.trans (hevolves.isPeriodic_eq.trans hperiodic))
            Bool.false_ne_true
      | false =>
          have hanswers := hanswered.2 record hrecord hperiodic
          rcases hmove.answers hsound hscripted ⟨record, hrecord, hanswers⟩ with
            ⟨ending, hcause, hnone, hafter⟩ | hafter
          · exact Or.inl ⟨ending, hcause, hnone, fun hnone => absurd hnone hsome,
              fun _ hfound _ => hafter.holds hfound⟩
          · exact Or.inr ⟨fun hnone => absurd hnone hsome, fun _ hfound _ => hafter.holds hfound⟩

/-- A step in which a body ends is one of a worker that is in it, and leaves it in the step. -/
theorem exists_job_of_ends {ending : Ending α} (hends : before.ends? action = some (task, ending))
    (hstep : before.step action = some after) :
    ∃ job turn, job ∈ before.jobs ∧ job.task = task ∧ job.stage = .inside (some turn) ∧
      { job with stage := .left ending.error? } ∈ after.jobs := by
  obtain ⟨worker, job, turn, rfl, hfind, htask, hstage, hpasses, rfl⟩ :=
    exists_inside_of_ends? hends
  have hjob := List.mem_of_find?_eq_some hfind
  simp only [step, hfind, work, hstage, hpasses, if_true] at hstep
  obtain rfl := Option.some.inj hstep
  refine ⟨job, turn, hjob, htask, hstage, ?_⟩
  exact List.mem_map.mpr ⟨job, (jobs_perform before turn).symm ▸ hjob, if_pos rfl⟩

theorem Reachable.answered_of_step (hreachable : Reachable config cores before)
    (hstep : before.step action = some after)
    (honce : ∀ record, after.record? task = some record → record.isPeriodic = false)
    (hanswered : Answered ending? task before) :
    (∃ ending, before.ends? action = some (task, ending) ∧ ending? = none ∧
      Answered (some ending) task after) ∨
    (∀ ending, before.ends? action ≠ some (task, ending)) ∧ Answered ending? task after := by
  have hsound := hreachable.sound
  obtain ⟨-, hends | hkept⟩ := Scheduler.of_step (p := fun state => state.Scripted ∧
      ((∃ ending, before.ends? action = some (task, ending) ∧ ending? = none ∧
        Answered (some ending) task state) ∨ Answered ending? task state))
    hsound hstep ⟨hreachable.scripted, Or.inr hanswered⟩ <| by
      rintro first second hfirst ⟨hscripted, hcases⟩ hmove
      refine ⟨hmove.scripted hfirst hscripted, ?_⟩
      rcases hcases with ⟨ending, hcause, hnone, hended⟩ | hkept
      · -- A body that has ended does not end again.
        rcases hmove.answered hfirst hscripted hended with ⟨_, -, hsome, -⟩ | hstill
        · simp at hsome
        · exact Or.inl ⟨ending, hcause, hnone, hstill⟩
      · exact hmove.answered hfirst hscripted hkept
  · exact Or.inl hends
  · refine Or.inr ⟨fun ending hends => ?_, hkept⟩
    obtain ⟨job, turn, hjob, rfl, hstage, hleft⟩ := exists_job_of_ends hends hstep
    obtain ⟨record, hrecord⟩ :=
      (hsound.custody.fitsAt_of_mem (mem_tasksAt_place hjob)).exists_record
    obtain ⟨later, hlater, hevolves⟩ := hsound.recordsEvolve_of_step hstep _ record hrecord
    have hperiodic := honce later hlater
    have hnone := (hanswered.2 record hrecord (hevolves.isPeriodic_eq.symm.trans hperiodic)).inside
      job hjob rfl _ hstage
    obtain ⟨_, hsome, -⟩ := (hkept.2 later hlater hperiodic).left _ hleft rfl _ rfl
    exact absurd (hnone.symm.trans hsome) (by simp)

/-- How the runs of a task have ended, the oldest first. -/
def endings (past : List (Scheduler α × Action α)) (task : TaskId) : List (Ending α) :=
  (past.filterMap fun step =>
    (step.1.ends? step.2).bind fun ended =>
      if ended.1 = task then some ended.2 else none).reverse

theorem endings_of_ends {ending : Ending α} (hends : before.ends? action = some (task, ending)) :
    endings ((before, action) :: past) task = endings past task ++ [ending] := by
  simp only [endings, List.filterMap_cons, hends, Option.bind_some, if_true, List.reverse_cons]

theorem endings_of_not (hnot : ∀ ending, before.ends? action ≠ some (task, ending)) :
    endings ((before, action) :: past) task = endings past task := by
  have hnone : ((before.ends? action).bind fun ended =>
      if ended.1 = task then some ended.2 else none) = none := by
    rw [Option.bind_eq_none_iff]
    rintro ⟨moved, ending⟩ hends
    exact if_neg fun htask => hnot ending (by rw [hends, ← htask])
  simp only [endings, List.filterMap_cons, hnone]

/-- The body of a one-shot task ends once at most, and the record says how. -/
theorem Run.answered (hrun : Run config cores past scheduler)
    (honce : ∀ record, scheduler.record? task = some record → record.isPeriodic = false) :
    ∃ ending? : Option (Ending α), endings past task = ending?.toList ∧
      Answered ending? task scheduler := by
  induction hrun with
  | start hcreated =>
      refine ⟨none, rfl, fun _ => rfl, fun record hrecord => ?_⟩
      obtain ⟨hnone, -⟩ := Prod.mk.inj (standing_new hcreated task)
      exact absurd (hnone.symm.trans hrecord) (by simp)
  | @step past before after hrun action hstep ih =>
      -- The task may not have a record yet; if it has, it is of the same mode.
      have hbefore : ∀ record, before.record? task = some record →
          record.isPeriodic = false := by
        intro record hrecord
        obtain ⟨later, hlater, hevolves⟩ :=
          hrun.reachable.sound.recordsEvolve_of_step hstep task record hrecord
        exact hevolves.isPeriodic_eq.symm.trans (honce later hlater)
      obtain ⟨ending?, hendings, hanswered⟩ := ih hbefore
      rcases hrun.reachable.answered_of_step hstep honce hanswered with
        ⟨ending, hends, rfl, hafter⟩ | ⟨hnot, hafter⟩
      · exact ⟨some ending, by rw [endings_of_ends hends, hendings]; rfl, hafter⟩
      · exact ⟨ending?, by rw [endings_of_not hnot, hendings], hafter⟩

/-! ## What there is to get -/

theorem Move.record?_of_finished (hmove : Move origin action before after) (hsound : before.Sound)
    {record : Record α} (hrecord : before.record? task = some record)
    (hfinished : record.state = .completed ∨ record.state = .failed) :
    after.record? task = some record := by
  have hcustody : before.Custody := hsound.custody
  rcases hmove.settling_or_rests hsound task with hsettling | hrests
  · obtain ⟨-, hfits⟩ := hcustody.fitsAt_of_mem hsettling.mem_running
    exact absurd hfinished (hfits.holds hrecord).1.not_finished
  · obtain ⟨later, hlater, hrest⟩ := hrests.record record hrecord
    obtain ⟨found, hfound, hevolves⟩ := hmove.recordsEvolve hcustody task record hrecord
    obtain rfl := Option.some.inj (hlater.symm.trans hfound)
    have hdone : record.isDone = true := by
      rcases hfinished with hstate | hstate <;> rw [Record.isDone, hstate] <;> rfl
    rw [← hevolves.state_eq hdone] at hfinished
    obtain rfl := hrest.finished hfinished
    exact hlater

theorem Move.get?_eq (hmove : Move origin action before after) (hsound : before.Sound)
    {result : Except TaskError α} (hget : before.get? task = some result) :
    after.get? task = some result := by
  obtain ⟨record, hrecord, hanswer⟩ := Option.bind_eq_some_iff.mp hget
  obtain ⟨later, hlater, hevolves⟩ := hmove.recordsEvolve hsound.custody task record hrecord
  suffices hsame : later.answer? = record.answer? from
    Option.bind_eq_some_iff.mpr ⟨later, hlater, hsame.trans hanswer⟩
  cases hperiodic : record.isPeriodic with
  | true =>
      rw [Record.answer?_of_periodic hperiodic,
        Record.answer?_of_periodic (hevolves.isPeriodic_eq.trans hperiodic)]
  | false =>
      have hdone := Record.isDone_of_answer? hperiodic hanswer
      rcases Record.finished_or_cancelled hdone with hfinished | hcancelled
      · have hstays := hmove.record?_of_finished hsound hrecord hfinished
        rw [Option.some.inj (hlater.symm.trans hstays)]
      · rw [Record.answer?_of_cancelled hperiodic hcancelled,
          Record.answer?_of_cancelled (hevolves.isPeriodic_eq.trans hperiodic)
            ((hevolves.state_eq hdone).trans hcancelled)]

theorem Leads.get?_eq (hleads : before.Leads after) (hreachable : Reachable config cores before)
    {result : Except TaskError α} (hget : before.get? task = some result) :
    after.get? task = some result := by
  induction hleads with
  | refl => exact hget
  | tail hmiddle hlast ih =>
      obtain ⟨action, hstep⟩ := hlast
      exact Scheduler.of_step (p := fun state => state.get? task = some result)
        (Leads.reachable hmiddle hreachable).sound hstep ih
        fun _ _ hsound hget hmove => hmove.get?_eq hsound hget

/-- Somebody asks for the result of a task, perhaps with a time limit, from one state until
another: they wait until the task is settled, look whether it has been cancelled, and look at what
its run has left behind, while the scheduler goes on. -/
inductive Fetch (task : TaskId) (limit? : Option Span) (begun : Scheduler α) :
    Scheduler α → Except TaskError α → Prop
  | refused {record : Record α} (hrecord : begun.record? task = some record)
      (hperiodic : record.isPeriodic = true) :
      Fetch task limit? begun begun (.error .notOneShot)
  | gaveUp {last : Scheduler α} {record : Record α} {limit : Span} (hlimit : limit? = some limit)
      (hwait : begun.Leads last) (hrecord : last.record? task = some record)
      (honce : record.isPeriodic = false) (hlive : record.isDone = false) :
      Fetch task limit? begun last (.error (.timeout limit))
  | cancelled {waited last : Scheduler α} {record later : Record α} (hwait : begun.Leads waited)
      (hrecord : waited.record? task = some record) (honce : record.isPeriodic = false)
      (hdone : record.isDone = true) (hlook : waited.Leads last)
      (hlater : last.record? task = some later) (hcancelled : later.isCancelled = true) :
      Fetch task limit? begun last (.error .cancelled)
  | read {waited looked last : Scheduler α} {record found later : Record α}
      (hwait : begun.Leads waited) (hrecord : waited.record? task = some record)
      (honce : record.isPeriodic = false) (hdone : record.isDone = true)
      (hlook : waited.Leads looked) (hfound : looked.record? task = some found)
      (hnot : found.isCancelled = false) (hread : looked.Leads last)
      (hlater : last.record? task = some later) :
      Fetch task limit? begun last (later.result?.getD (.error .cancelled))

/-- Whoever does not give up gets what there is to get in the end. -/
theorem Fetch.get?_eq {limit? : Option Span} {begun last : Scheduler α}
    {result : Except TaskError α} (hfetch : Fetch task limit? begun last result)
    (hreachable : Reachable config cores begun) :
    (last.get? task = none ∧ ∃ limit, limit? = some limit ∧ result = .error (.timeout limit)) ∨
      last.get? task = some result := by
  cases hfetch with
  | refused hrecord hperiodic =>
      exact Or.inr (Option.bind_eq_some_iff.mpr
        ⟨_, hrecord, Record.answer?_of_periodic hperiodic⟩)
  | gaveUp hlimit _ hrecord honce hlive =>
      refine Or.inl ⟨?_, _, hlimit, rfl⟩
      rw [Scheduler.get?, hrecord]
      exact Record.answer?_eq_none.mpr ⟨honce, hlive⟩
  | cancelled hwait hrecord honce _ hlook hlater hcancelled =>
      obtain ⟨found, hfound, hevolves⟩ :=
        hlook.recordsEvolve (hwait.reachable hreachable) task _ hrecord
      obtain rfl := Option.some.inj (hfound.symm.trans hlater)
      refine Or.inr (Option.bind_eq_some_iff.mpr ⟨found, hlater, ?_⟩)
      exact Record.answer?_of_cancelled (hevolves.isPeriodic_eq.trans honce)
        (by simpa [Record.isCancelled] using hcancelled)
  | @read _ _ _ record found later hwait hrecord honce hdone hlook hfound hnot hread hlater =>
      have hwaited := hwait.reachable hreachable
      obtain ⟨same, hsame, hfirst⟩ := hlook.recordsEvolve hwaited task record hrecord
      obtain rfl := Option.some.inj (hsame.symm.trans hfound)
      obtain ⟨final, hfinal, hsecond⟩ :=
        hread.recordsEvolve (hlook.reachable hwaited) task same hfound
      obtain rfl := Option.some.inj (hfinal.symm.trans hlater)
      have hevolves := hfirst.trans hsecond
      -- A task that is settled is not cancelled afterwards.
      have hfinished := (Record.finished_or_cancelled hdone).resolve_right fun hcancelled => by
        have hstate := (hfirst.state_eq hdone).trans hcancelled
        simp [Record.isCancelled, hstate] at hnot
      refine Or.inr (Option.bind_eq_some_iff.mpr ⟨final, hlater, ?_⟩)
      refine Record.answer?_of_finished (hevolves.isPeriodic_eq.trans honce) ?_
      rwa [hevolves.state_eq hdone]

/-- Whoever asks when there is something to get gets it at once. -/
theorem Fetch.of_get? {result : Except TaskError α} (hget : scheduler.get? task = some result)
    (limit? : Option Span) : Fetch task limit? scheduler scheduler result := by
  obtain ⟨record, hrecord, hanswer⟩ := Option.bind_eq_some_iff.mp hget
  cases hperiodic : record.isPeriodic with
  | true =>
      rw [Record.answer?_of_periodic hperiodic] at hanswer
      obtain rfl := Option.some.inj hanswer
      exact .refused hrecord hperiodic
  | false =>
      have hdone := Record.isDone_of_answer? hperiodic hanswer
      rcases Record.finished_or_cancelled hdone with hfinished | hcancelled
      · rw [Record.answer?_of_finished hperiodic hfinished] at hanswer
        obtain rfl := Option.some.inj hanswer
        have hnot : record.isCancelled = false := by
          rcases hfinished with hstate | hstate <;> simp [Record.isCancelled, hstate]
        exact .read .refl hrecord hperiodic hdone .refl hrecord hnot .refl hrecord
      · rw [Record.answer?_of_cancelled hperiodic hcancelled] at hanswer
        obtain rfl := Option.some.inj hanswer
        exact .cancelled .refl hrecord hperiodic hdone .refl hrecord
          (by simp [Record.isCancelled, hcancelled])

/-- In every state of a run, the holder of a one-shot task that has completed gets the value with
which its one run has ended; if it has failed, the error of this run, which is also the last error;
and if it has been cancelled, they are told so, whatever its run has left behind.  Whoever asks then
gets this very answer at once; whoever has asked before and not given up gets it as well, and so do
all who ask later.  Giving up changes nothing.  The holder of a periodic task is always refused. -/
theorem Run.get_agrees (hrun : Run config cores past scheduler) {record : Record α}
    (hrecord : scheduler.record? task = some record) :
    (record.isPeriodic = true → scheduler.get? task = some (.error .notOneShot)) ∧
    (record.isPeriodic = false →
      (record.isDone = false → scheduler.get? task = none) ∧
      (record.state = .completed →
        ∃ value, endings past task = [.value value] ∧ scheduler.get? task = some (.ok value)) ∧
      (record.state = .failed →
        ∃ ending error, endings past task = [ending] ∧ ending.error? = some error ∧
          record.lastError? = some error ∧ scheduler.get? task = some (.error error)) ∧
      (record.state = .cancelled → scheduler.get? task = some (.error .cancelled))) ∧
    (∀ limit? result, scheduler.get? task = some result →
      Fetch task limit? scheduler scheduler result) ∧
    (∀ limit? begun result, Reachable config cores begun →
      Fetch task limit? begun scheduler result →
        (scheduler.get? task = none ∧
          ∃ limit, limit? = some limit ∧ result = .error (.timeout limit)) ∨
        (scheduler.get? task = some result ∧
          ∀ limit? begun last again, scheduler.Leads last → Reachable config cores begun →
            Fetch task limit? begun last again → again = result)) ∧
    ∀ (session after : Session α) (name : String) (limit : Span),
      session.ask (.get name (some limit)) = (after, .value (.error (.timeout limit))) →
        after = session := by
  have hget : ∀ {result}, record.answer? = some result → scheduler.get? task = some result :=
    fun hanswer => Option.bind_eq_some_iff.mpr ⟨record, hrecord, hanswer⟩
  refine ⟨fun hperiodic => hget (Record.answer?_of_periodic hperiodic), fun honce => ?_,
    fun limit? _ hsome => .of_get? hsome limit?, fun limit? begun result hbegun hfetch => ?_,
    fun session after name limit hask => ?_⟩
  · have honly : ∀ found, scheduler.record? task = some found → found.isPeriodic = false :=
      fun found hfound => by rwa [Option.some.inj (hfound.symm.trans hrecord)]
    obtain ⟨ending?, hendings, -, hanswers⟩ := hrun.answered honly
    have hanswers := hanswers record hrecord honce
    refine ⟨fun hlive => ?_, fun hcompleted => ?_, fun hfailed => ?_, fun hcancelled => ?_⟩
    · rw [get?, hrecord]
      exact Record.answer?_eq_none.mpr ⟨honce, hlive⟩
    · obtain ⟨value, rfl⟩ := hanswers.completed hcompleted
      have hanswer := Record.answer?_of_finished honce (Or.inl hcompleted)
      rw [hanswers.result_eq] at hanswer
      exact ⟨value, hendings, hget hanswer⟩
    · obtain ⟨ending, error, rfl, herror⟩ := hanswers.failed hfailed
      have hanswer := Record.answer?_of_finished honce (Or.inr hfailed)
      rw [hanswers.result_eq, Option.map_some, Record.resultOf_of_error herror] at hanswer
      exact ⟨ending, error, hendings, herror, hanswers.error_eq.trans herror, hget hanswer⟩
    · exact hget (Record.answer?_of_cancelled honce hcancelled)
  · refine (hfetch.get?_eq hbegun).imp_right fun hsome => ⟨hsome, ?_⟩
    intro limit? later last again hleads hlater hagain
    -- An answer that has been there stays, so that whoever asks later gets the same.
    have hstays := hleads.get?_eq hrun.reachable hsome
    rcases hagain.get?_eq hlater with ⟨hnone, -⟩ | hsame
    · exact absurd (hnone.symm.trans hstays) (by simp)
    · exact Option.some.inj (hsame.symm.trans hstays)
  · exact Session.eq_of_ask_get hask (by simp)

/-- A task is cancelled while it is running.  Its body ends with a value all the same, but that is
not what there is to get. -/
theorem get_agrees_after_late_value :
    ∃ (past : List (Scheduler Unit × Action Unit)) (scheduler : Scheduler Unit)
      (record : Record Unit), Run {} 1 past scheduler ∧ scheduler.record? 0 = some record ∧
      record.state = .cancelled ∧ record.result?.isSome = true ∧
      (endings past 0).map Ending.error? = [none] ∧
      scheduler.get? 0 = some (.error .cancelled) := by
  have hview : (played {} 1
      [.request (.schedule (plainTask .oneShot .zero) true), .proceed 0, .dispatch, .dispatch,
        .takeUp 0, .request (.cancel 0), .work 0]).map (fun final =>
          ((endings final.1 0).map Ending.error?,
            (final.2.record? 0).map fun record =>
              (record.state, record.isPeriodic, record.result?.isSome))) =
      some ([none], some (.cancelled, false, true)) := by
    decide +kernel
  obtain ⟨⟨past, scheduler⟩, hplayed, hparts⟩ := Option.map_eq_some_iff.mp hview
  obtain ⟨hendings, hrecord⟩ := Prod.mk.inj hparts
  obtain ⟨record, hrecord, hview⟩ := Option.map_eq_some_iff.mp hrecord
  obtain ⟨hstate, honce, hresult⟩ : record.state = .cancelled ∧ record.isPeriodic = false ∧
      record.result?.isSome = true := by simpa using hview
  have hrun := Run.of_played hplayed
  obtain ⟨-, hgot, -⟩ := hrun.get_agrees hrecord
  obtain ⟨-, -, -, hcancelled⟩ := hgot honce
  exact ⟨past, scheduler, record, hrun, hrecord, hstate, hresult, hendings, hcancelled hstate⟩

end Scheduler

end TimedTasks
