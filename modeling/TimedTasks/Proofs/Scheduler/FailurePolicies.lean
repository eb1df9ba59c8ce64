import TimedTasks.Proofs.Scheduler.CatchUp
import TimedTasks.Proofs.Scheduler.Isolation
import TimedTasks.Proofs.Scheduler.Revoking
import TimedTasks.Proofs.Scheduler.Succession

/-!
# What a failure does to a task

A body that has ended is settled, and of the bodies that have ended it is the last one at most that
has not been (`Run.errors_eq`).  So what failures do to a task is read off its settlements.

If failures are to stop periodic tasks, the verdict on a failed run is that it was the last one, and
the task is gone for good (`StopsAtFailure`).  If they are not, the verdict does not depend on how
the run has ended, and nothing that happens later does either: had the body ended in some other way,
the scheduler would go the same way (`replay_retold`).  So the task stops because it is cancelled,
by somebody or by a shutdown, or because there is no moment at which it could be due again
(`GoesOnAfterFailure`).  A one-shot task comes to its end with its run, and the policy makes no
difference to it (`EndsAsItsRun`).
-/

namespace TimedTasks

theorem Schedule.outcome_of_failure {schedule : Schedule} {dueAt completedAt : Moment}
    {error? : Option TaskError} (herror : error?.isSome = true) :
    (schedule.verdict .stop dueAt completedAt error?).outcome = .failed := by
  unfold verdict
  split
  · rfl
  · rw [if_neg (by rw [Option.isNone_iff_eq_none]; rintro rfl; simp at herror)]
    rfl
  · rw [if_pos ⟨herror, rfl⟩]
    rfl

/-- If a failure is not to stop a periodic task, its last run is one after which it cannot be
due. -/
theorem Schedule.nextRun_of_last {schedule : Schedule} (hperiodic : schedule.isPeriodic = true)
    {dueAt completedAt : Moment} {error? : Option TaskError}
    (hlast : ∀ next, schedule.verdict .keepGoing dueAt completedAt error? ≠ .rearm next) :
    ∃ period, schedule.period? = some period ∧
      schedule.nextRun dueAt completedAt = .error (.outOfRange period) := by
  cases schedule with
  | oneShot => exact absurd hperiodic (by decide)
  | fixedRate period =>
      refine ⟨period, rfl, ?_⟩
      cases hadd : dueAt.add? period with
      | none => simp [nextRun, after, hadd]
      | some next => exact absurd (by simp [verdict, nextRun, after, hadd]) (hlast next)
  | fixedDelay period =>
      refine ⟨period, rfl, ?_⟩
      cases hadd : completedAt.add? period with
      | none => simp [nextRun, after, hadd]
      | some next => exact absurd (by simp [verdict, nextRun, after, hadd]) (hlast next)

/-- Something that can only be the last of a list is in it once. -/
theorem countP_le_one_of_last {β : Type} {p : β → Bool} {items : List β}
    (hlast : ∀ earlier item later, items = earlier ++ item :: later → p item = true →
      later = []) : items.countP p ≤ 1 := by
  rcases List.eq_nil_or_concat items with rfl | ⟨front, last, rfl⟩
  · exact Nat.zero_le _
  · have hnone : front.countP p = 0 := by
      refine List.countP_eq_zero.mpr fun item hitem hp => ?_
      obtain ⟨earlier, later, rfl⟩ := List.append_of_mem hitem
      have hnil := hlast earlier item (later ++ [last])
        (by rw [List.concat_eq_append, List.append_assoc, List.cons_append]) hp
      exact absurd hnil (by simp)
    rw [List.concat_eq_append, List.countP_append, hnone, Nat.zero_add]
    exact List.countP_le_length

/-- How the body has ended of a run that is still to be settled. -/
def Stage.left? {α : Type} : Stage α → Option (Option TaskError)
  | .left error? => some error?
  | .inside _ | .rearmed | .refused => none

namespace Scheduler

variable {α : Type} {origin before after scheduler : Scheduler α} {action : Action α}
variable {config : Config} {cores : Nat} {past : List (Scheduler α × Action α)} {task : TaskId}

/-! ## Bodies and settlements -/

/-- How the body has ended of the run of a task that is still to be settled, if there is one. -/
def unsettled (scheduler : Scheduler α) (task : TaskId) : List (Option TaskError) :=
  ((scheduler.phase? task).bind Stage.left?).toList

theorem settlement?_of_settles {error? : Option TaskError} {verdict : Verdict}
    (hsettles : before.settles? action = some (task, error?, verdict)) :
    ∃ settlement, before.settlement? action task = some settlement ∧
      settlement.error? = error? := by
  obtain ⟨worker, job, record, -, -, -, -, -, hrecord, -⟩ := exists_job_of_settles hsettles
  exact ⟨⟨record, before.agenda.reading, error?, verdict⟩,
    settlement?_eq_some.mpr ⟨hsettles, hrecord, rfl⟩, rfl⟩

theorem settlement?_of_not
    (hnot : ∀ settlement, before.settles? action ≠ some (task, settlement)) :
    before.settlement? action task = none := by
  refine Option.eq_none_iff_forall_ne_some.mpr fun settlement hsettlement => ?_
  obtain ⟨hsettles, -⟩ := settlement?_eq_some.mp hsettlement
  exact hnot _ hsettles

/-- The bodies that have ended are those of the runs that have been settled, and the body of the
run that is still to be settled. -/
theorem Run.errors_eq (hrun : Run config cores past scheduler) (task : TaskId) :
    (endings past task).map Ending.error? =
      (settlements past task).map Settlement.error? ++ scheduler.unsettled task := by
  induction hrun with
  | start hcreated =>
      obtain rfl := new_eq_ok hcreated
      rfl
  | @step past before after hrun action hstep ih =>
      have hkept : (∀ settlement, before.settles? action ≠ some (task, settlement)) →
          settlements ((before, action) :: past) task = settlements past task :=
        fun hnot => settlements_of_none (settlement?_of_not hnot)
      unfold unsettled at ih ⊢
      -- A body that ends is put down as unsettled, and settling it moves it over.
      cases hrun.reachable.episode hstep task with
      | begun hends hsettles _ hbefore hafter =>
          rw [endings_of_not (by simp [hends]), hkept (by simp [hsettles]), ih, hbefore, hafter]
          rfl
      | ended hends hsettles hbefore hafter =>
          rw [endings_of_ends hends, hkept (by simp [hsettles]), List.map_append, ih, hbefore,
            hafter, List.append_assoc]
          rfl
      | @settled error? verdict hends hsettles hbefore hafter =>
          obtain ⟨settlement, hsettlement, rfl⟩ := settlement?_of_settles hsettles
          rw [endings_of_not (by simp [hends]), settlements_of_some hsettlement, List.map_append,
            ih, hbefore, hafter, List.append_assoc]
          rfl
      | quiet hends hsettles hphase =>
          rw [endings_of_not hends, hkept hsettles, ih, hphase]

theorem length_unsettled_le (scheduler : Scheduler α) (task : TaskId) :
    (scheduler.unsettled task).length ≤ 1 := by
  unfold unsettled
  exact Option.length_toList_le

theorem unended_of_unsettled (hunsettled : scheduler.unsettled task ≠ []) :
    (scheduler.phase? task).elim 0 Stage.unended = 0 := by
  unfold unsettled at hunsettled
  cases hphase : scheduler.phase? task with
  | none => rfl
  | some stage =>
      rw [hphase] at hunsettled
      cases stage with
      | inside => exact absurd rfl hunsettled
      | left | rearmed | refused => rfl

/-! ## Failures that stop a task -/

/-- A periodic task comes to its end with the first run that fails. -/
structure StopsAtFailure (past : List (Scheduler α × Action α)) (task : TaskId)
    (scheduler : Scheduler α) (record : Record α) : Prop where
  failed_le : ((endings past task).countP fun ending => ending.error?.isSome) ≤ 1
  last : ∀ earlier ending later, endings past task = earlier ++ ending :: later →
    ending.error?.isSome = true → later = [] ∧ record.runs = earlier.length + 1
  /-- Once the run has been settled, the task has failed, unless it has been cancelled before. -/
  stopped : ∀ earlier settlement later, settlements past task = earlier ++ settlement :: later →
    settlement.error?.isSome = true → later = [] ∧ record.isDone = true ∧
      record.state = (if settlement.record.state = .cancelled then .cancelled else .failed) ∧
      ∀ final, scheduler.Leads final →
        (final.Has task fun last => last.state = record.state) ∧
          task ∉ final.agenda.queue.tasks ∧
          final.agenda.starts task = scheduler.agenda.starts task

theorem Leads.gone {final : Scheduler α} (hleads : scheduler.Leads final)
    (hreachable : Reachable config cores scheduler) {record : Record α}
    (hrecord : scheduler.record? task = some record) (hgone : Gone task scheduler record) :
    (final.Has task fun last => last.state = record.state ∧ Gone task final last) ∧
      final.agenda.starts task = scheduler.agenda.starts task := by
  induction hleads with
  | refl => exact ⟨⟨record, hrecord, rfl, hgone⟩, rfl⟩
  | tail hmiddle hlast ih =>
      obtain ⟨action, hstep⟩ := hlast
      obtain ⟨⟨found, hfound, hstate, hgone⟩, hstarts⟩ := ih
      have hreached := Leads.reachable hmiddle hreachable
      obtain ⟨later, hlater, hevolves⟩ :=
        hreached.sound.recordsEvolve_of_step hstep task found hfound
      refine ⟨⟨later, hlater, (hevolves.state_eq hgone.isDone).trans hstate,
        hgone.of_step hreached.sound hstep hfound hlater⟩, ?_⟩
      -- A run would have to start from the backlog, and the task is not there.
      rcases hreached.starts_of_step hstep hfound with hsame | ⟨hwaits, -⟩
      · exact hsame.trans hstarts
      · exact absurd hwaits hgone.not_mem

section Stop

variable {record : Record α} (hrun : Run config cores past scheduler)
variable (hrecord : scheduler.record? task = some record) (hpolicy : config.policy = .stop)

include hrun hrecord hpolicy

theorem Run.gone_of_failure {earlier later : List (Settlement α)} {settlement : Settlement α}
    (hsplit : settlements past task = earlier ++ settlement :: later)
    (herror : settlement.error?.isSome = true) :
    later = [] ∧ Gone task scheduler record ∧
      record.state = if settlement.record.state = .cancelled then .cancelled else .failed := by
  have hchain := hrun.chain hrecord
  have hproper := hchain.proper settlement (by rw [hsplit]; simp)
  rw [hpolicy] at hproper
  have hlast : settlement.IsLast := by
    rw [Settlement.IsLast, hproper.verdict_eq]
    exact Schedule.verdict_ne_rearm_iff.mpr (Or.inr ⟨herror, rfl⟩)
  obtain ⟨hnil, hgone, hstate⟩ :=
    hchain.done earlier settlement later hsplit (hproper.isDone_judged.mpr (Or.inl hlast))
  refine ⟨hnil, hgone, hstate.trans ?_⟩
  rw [settlement.judged_state, hproper.verdict_eq, Schedule.outcome_of_failure herror]
  rcases hproper.isBusy with hrunning | hcancelled
  · simp [hrunning]
  · simp [hcancelled]

/-- A body that fails is the last one to be entered. -/
theorem Run.last_of_failure {earlier later : List (Ending α)} {ending : Ending α}
    (hsplit : endings past task = earlier ++ ending :: later)
    (herror : ending.error?.isSome = true) :
    later = [] ∧ (scheduler.phase? task).elim 0 Stage.unended = 0 := by
  have herrors := hrun.errors_eq task
  rw [hsplit, List.map_append, List.map_cons] at herrors
  have hone := scheduler.length_unsettled_le task
  have hopen : scheduler.unsettled task ≠ [] → later = [] →
      later = [] ∧ (scheduler.phase? task).elim 0 Stage.unended = 0 :=
    fun hunsettled hnil => ⟨hnil, unended_of_unsettled hunsettled⟩
  rcases List.append_eq_append_iff.mp herrors with ⟨rest, hfront, hback⟩ | ⟨rest, -, hback⟩
  · cases rest with
    | nil =>
        rw [List.nil_append] at hback
        rw [← hback, List.length_cons, List.length_map] at hone
        exact hopen (by simp [← hback]) (List.length_eq_zero_iff.mp (by omega))
    | cons error? rest =>
        -- The run has been settled, so it was the last one, and it is over.
        obtain ⟨rfl, hrest⟩ := List.cons.inj hback
        obtain ⟨first, second, hsettlements, -, hmore⟩ := List.map_eq_append_iff.mp hfront
        obtain ⟨settlement, others, rfl, hsame, rfl⟩ := List.map_eq_cons_iff.mp hmore
        obtain ⟨rfl, hgone, -⟩ :=
          hrun.gone_of_failure hrecord hpolicy hsettlements (hsame ▸ herror)
        have hphase : scheduler.phase? task = none :=
          phase?_eq_none hgone.inProgress_eq
        rw [unsettled, hphase] at hrest
        exact ⟨List.map_eq_nil_iff.mp hrest, by rw [hphase]; rfl⟩
  · rw [hback, List.length_append, List.length_cons, List.length_map] at hone
    exact hopen (by simp [hback]) (List.length_eq_zero_iff.mp (by omega))

theorem Run.stopsAtFailure : StopsAtFailure past task scheduler record where
  failed_le := countP_le_one_of_last fun _ _ _ hsplit herror =>
    (hrun.last_of_failure hrecord hpolicy hsplit herror).1
  last := by
    intro earlier ending later hsplit herror
    obtain ⟨rfl, hzero⟩ := hrun.last_of_failure hrecord hpolicy hsplit herror
    have hruns := (hrun.ledger task).runs_eq
    rw [account_eq hrecord, hzero, hsplit, List.length_append, List.length_singleton] at hruns
    exact ⟨rfl, hruns⟩
  stopped := by
    intro earlier settlement later hsplit herror
    obtain ⟨rfl, hgone, hstate⟩ := hrun.gone_of_failure hrecord hpolicy hsplit herror
    refine ⟨rfl, hgone.isDone, hstate, fun final hleads => ?_⟩
    obtain ⟨⟨last, hlast, hsame, hstill⟩, hstarts⟩ := hleads.gone hrun.reachable hrecord hgone
    exact ⟨⟨last, hlast, hsame⟩, hstill.not_queued, hstarts⟩

end Stop

/-! ## Failures that stop nothing -/

/-- What there is to see of a task: its state, its due time, and the queue with its entry. -/
def outlook (scheduler : Scheduler α) (task : TaskId) : Option (TaskState × Moment) × Queue :=
  ((scheduler.record? task).map fun record => (record.state, record.nextRunAt),
    scheduler.agenda.queue)

/-- The scheduler as it would be if a body that has ended had ended in another way, with other
failures counted against its task. -/
def retold (scheduler : Scheduler α) (job : Job α) (error? : Option TaskError) (failures : Nat)
    (lastError? : Option TaskError) : Scheduler α :=
  Scheduler.goOnWith
    { scheduler with
      agenda :=
        scheduler.agenda.update job.task fun record => { record with failures, lastError? } }
    job (.left error?)

/-- How a body has ended is muted. -/
theorem Sound.muted_retold (hsound : scheduler.Sound) {job : Job α} (hjob : job ∈ scheduler.jobs)
    {error? : Option TaskError} (hstage : job.stage = .left error?) (other? : Option TaskError)
    (failures : Nat) (lastError? : Option TaskError) :
    (scheduler.retold job other? failures lastError?).muted = scheduler.muted := by
  have hagenda : (scheduler.agenda.update job.task fun record =>
      { record with failures, lastError? }).muted = scheduler.agenda.muted := by
    have hrecords : ∀ other : TaskId, (scheduler.agenda.update job.task fun record =>
        { record with failures, lastError? }).muted.records[other]? =
          scheduler.agenda.muted.records[other]? := by
      intro other
      refine (scheduler.agenda.records_update_muted job.task _ other).trans ?_
      split
      · exact (scheduler.agenda.muted_records other).symm
      · rfl
    exact congrArg (fun records => ({ scheduler.agenda.muted with records } : Agenda Unit))
      (Array.ext_getElem? hrecords)
  have hmuted : muted { scheduler with
      agenda := scheduler.agenda.update job.task fun record =>
        { record with failures, lastError? } } = scheduler.muted :=
    congrArg (fun agenda => ({ scheduler.muted with agenda } : Scheduler Unit)) hagenda
  have hleft : ({ job.muted with stage := .left none } : Job Unit) = job.muted := by
    rw [Job.muted, hstage]
    rfl
  have hjobs : (scheduler.jobs.map Job.muted).map (fun other =>
      if other.worker = job.worker then { job.muted with stage := .left none } else other) =
        scheduler.jobs.map Job.muted := by
    rw [List.map_map]
    refine List.map_congr_left fun other hother => ?_
    by_cases hworker : other.worker = job.worker
    · obtain rfl := List.inj_on_of_nodup_map hsound.staffed hother hjob hworker
      exact (if_pos rfl).trans hleft
    · exact if_neg hworker
  rw [retold, ← goOnWith_muted, hmuted]
  exact congrArg (fun jobs => ({ scheduler.muted with jobs } : Scheduler Unit)) hjobs

/-- Schedulers that are the same once they are muted make the same steps, and stay so. -/
theorem Reachable.replay_muted {first second : Scheduler α}
    {other : List (Scheduler α × Action α)} (hreachable : Reachable config cores first)
    (hpolicy : config.policy = .keepGoing) (hmuted : first.muted = second.muted)
    (actions : List (Action α)) :
    (replay past first actions).map (fun result => result.2.muted) =
      (replay other second actions).map fun result => result.2.muted := by
  induction actions generalizing past other first second with
  | nil => exact congrArg some hmuted
  | cons action rest ih =>
      have hstep : (first.step action).map muted = (second.step action).map muted :=
        muted_step_eq (hreachable.policy_eq.trans hpolicy) hmuted rfl
      unfold replay
      -- A step that one of them cannot make, the other cannot make either.
      cases hfirst : first.step action with
      | none =>
          rw [hfirst] at hstep
          rw [Option.map_eq_none_iff.mp hstep.symm]
      | some after =>
          rw [hfirst] at hstep
          obtain ⟨next, hsecond, hnext⟩ := Option.map_eq_some_iff.mp hstep.symm
          rw [hsecond]
          exact ih (.step hreachable action hfirst) hnext.symm

/-- What there is to see of a periodic task is not muted. -/
theorem outlook_eq_of_muted {first second : Scheduler α} (hmuted : first.muted = second.muted)
    (hperiodic : ∀ record, first.record? task = some record → record.isPeriodic = true) :
    first.outlook task = second.outlook task := by
  refine Prod.ext ?_ (abreast_of_muted_eq hmuted).queue_eq
  have hrecords := records_muted_eq hmuted task
  cases hfirst : first.record? task with
  | none =>
      rw [hfirst] at hrecords
      simp only [outlook, hfirst, Option.map_eq_none_iff.mp hrecords.symm]
  | some record =>
      rw [hfirst] at hrecords
      obtain ⟨twin, hsecond, -⟩ := Option.map_eq_some_iff.mp hrecords.symm
      have hdiffers := differsInEndings_of_muted_eq hmuted hfirst hsecond
      have hstate := hdiffers.state.resolve_right fun hsplit =>
        absurd (hsplit.1.symm.trans (hperiodic record hfirst)) Bool.false_ne_true
      simp only [outlook, hfirst, hsecond, Option.map_some, hstate, hdiffers.due_eq]

/-- However the body of a periodic task has ended, its run is settled in the same way, and the
scheduler goes the same way from there. -/
theorem Reachable.replay_retold (hreachable : Reachable config cores scheduler)
    (hpolicy : config.policy = .keepGoing) {job : Job α} (hjob : job ∈ scheduler.jobs)
    {error? : Option TaskError} (hstage : job.stage = .left error?)
    (hperiodic : ∀ record, scheduler.record? job.task = some record → record.isPeriodic = true)
    (other? : Option TaskError) (failures : Nat) (lastError? : Option TaskError)
    (actions : List (Action α)) :
    (replay past scheduler actions).map (fun result => result.2.outlook job.task) =
      (replay past (scheduler.retold job other? failures lastError?) actions).map
        fun result => result.2.outlook job.task := by
  have hretold := hreachable.sound.muted_retold hjob hstage other? failures lastError?
  have hmuted : (replay past scheduler actions).map (fun result => result.2.muted) =
      (replay past (scheduler.retold job other? failures lastError?) actions).map
        fun result => result.2.muted :=
    hreachable.replay_muted hpolicy hretold.symm actions
  cases hfirst : replay past scheduler actions with
  | none =>
      rw [hfirst] at hmuted
      rw [Option.map_eq_none_iff.mp hmuted.symm]
  | some result =>
      rw [hfirst] at hmuted
      obtain ⟨twin, hsecond, hsame⟩ := Option.map_eq_some_iff.mp hmuted.symm
      rw [hsecond, Option.map_some, Option.map_some]
      refine congrArg some (outlook_eq_of_muted hsame.symm fun later hlater => ?_)
      obtain ⟨record, hrecord⟩ :=
        (hreachable.sound.custody.fitsAt_of_mem (mem_tasksAt_place hjob)).exists_record
      have hleads : scheduler.Leads result.2 := Leads.of_replay .refl hfirst
      obtain ⟨found, hfound, hevolves⟩ := hleads.recordsEvolve hreachable job.task record hrecord
      obtain rfl := Option.some.inj (hfound.symm.trans hlater)
      exact hevolves.isPeriodic_eq.trans (hperiodic record hrecord)

/-- A failure does not stop a periodic task. -/
structure GoesOnAfterFailure (past : List (Scheduler α × Action α)) (task : TaskId)
    (scheduler : Scheduler α) (record : Record α) : Prop where
  /-- Had the body ended otherwise, everything would go on in the same way. -/
  alike : ∀ job error?, job ∈ scheduler.jobs → job.task = task → job.stage = .left error? →
    ∀ other? failures lastError? actions,
      (replay past scheduler actions).map (fun result => result.2.outlook task) =
        (replay past (scheduler.retold job other? failures lastError?) actions).map
          fun result => result.2.outlook task
  rearmed : ∀ settlement ∈ settlements past task, ∀ next,
    record.schedule.nextRun settlement.due settlement.completedAt = .ok (some next) →
      settlement.verdict = .rearm next
  not_completed : record.state ≠ .completed
  failed : record.state = .failed → ∃ settlement period,
    (settlements past task).getLast? = some settlement ∧ record.schedule.period? = some period ∧
      record.schedule.nextRun settlement.due settlement.completedAt = .error (.outOfRange period)
  /-- It has been cancelled in some step, by somebody or because the scheduler did not run. -/
  cancelled : record.state = .cancelled → ∃ before action after, (before, action) ∈ past ∧
    before.step action = some after ∧
    (¬ before.Has task fun found => found.state = .cancelled) ∧
    (after.Has task fun found => found.state = .cancelled) ∧
    (before.Cancels action task ∨ before.lifecycle ≠ .running)

theorem Run.goesOnAfterFailure (hrun : Run config cores past scheduler) {record : Record α}
    (hrecord : scheduler.record? task = some record) (hperiodic : record.isPeriodic = true)
    (hpolicy : config.policy = .keepGoing) :
    GoesOnAfterFailure past task scheduler record := by
  have hchain := hrun.chain hrecord
  have honly : ∀ found, scheduler.record? task = some found → found.isPeriodic = true :=
    fun found hfound => by rwa [Option.some.inj (hfound.symm.trans hrecord)]
  refine ⟨?_, fun settlement hmem next hnext => ?_, ?_, fun hfailed => ?_, fun hcancelled => ?_⟩
  · rintro job error? hjob rfl hstage
    exact hrun.reachable.replay_retold hpolicy hjob hstage honly
  · rw [(hchain.proper settlement hmem).verdict_eq, hpolicy]
    simp [Schedule.verdict, hnext]
  · exact hrun.reachable.not_completed hrecord hperiodic
  · obtain ⟨settlement, hlast, hisLast⟩ := hchain.finished (Or.inr hfailed)
    have hproper := hchain.proper settlement (List.mem_of_getLast? hlast)
    rw [Settlement.IsLast, hproper.verdict_eq, hpolicy] at hisLast
    obtain ⟨period, hperiod, hnext⟩ := Schedule.nextRun_of_last hperiodic hisLast
    exact ⟨settlement, period, hlast, hperiod, hnext⟩
  · exact hrun.exists_cause ⟨record, hrecord, hcancelled⟩

/-! ## One-shots -/

/-- A one-shot task comes to its end with its run, and as the run has ended, unless it has been
cancelled before. -/
structure EndsAsItsRun (past : List (Scheduler α × Action α)) (task : TaskId) (record : Record α) :
    Prop where
  completed_iff : record.state = .completed ↔
    record.state ≠ .cancelled ∧ (settlements past task).map Settlement.error? = [none]
  failed_iff : record.state = .failed ↔
    record.state ≠ .cancelled ∧
      ∃ error, (settlements past task).map Settlement.error? = [some error]
  cancelled_iff : ∀ settlement ∈ settlements past task,
    (record.state = .cancelled ↔ settlement.record.state = .cancelled)

theorem Run.settlements_of_once (hrun : Run config cores past scheduler) {record : Record α}
    (hrecord : scheduler.record? task = some record) (honce : record.isPeriodic = false) :
    settlements past task = [] ∨ ∃ settlement, settlements past task = [settlement] ∧
      record.state = if settlement.record.state = .cancelled then .cancelled
        else if settlement.error?.isSome then .failed else .completed := by
  have hchain := hrun.chain hrecord
  cases hsettlements : settlements past task with
  | nil => exact Or.inl rfl
  | cons settlement rest =>
      right
      have hproper := hchain.proper settlement (hsettlements ▸ List.mem_cons_self ..)
      have hverdict : settlement.verdict =
          .finish (if settlement.error?.isNone then .completed else .failed) := by
        rw [hproper.verdict_eq]
        exact Schedule.verdict_of_once honce ..
      have hlast : settlement.IsLast := fun next hagain => by simp [hverdict] at hagain
      obtain ⟨rfl, -, hstate⟩ :=
        hchain.done [] settlement rest hsettlements (hproper.isDone_judged.mpr (Or.inl hlast))
      refine ⟨settlement, rfl, hstate.trans ?_⟩
      rw [settlement.judged_state, hverdict]
      rcases hproper.isBusy with hrunning | hcancelled
      · cases settlement.error? <;> simp [hrunning, Verdict.outcome]
      · simp [hcancelled]

theorem Run.endsAsItsRun (hrun : Run config cores past scheduler) {record : Record α}
    (hrecord : scheduler.record? task = some record) (honce : record.isPeriodic = false) :
    EndsAsItsRun past task record := by
  rcases hrun.settlements_of_once hrecord honce with hnil | ⟨settlement, hone, hstate⟩
  · have hopen : ¬ (record.state = .completed ∨ record.state = .failed) := by
      intro hfinished
      obtain ⟨settlement, hlast, -⟩ := (hrun.chain hrecord).finished hfinished
      simp [hnil] at hlast
    rw [not_or] at hopen
    exact ⟨by simp [hnil, hopen.1], by simp [hnil, hopen.2], by simp [hnil]⟩
  · by_cases hcancelled : settlement.record.state = .cancelled
    · rw [if_pos hcancelled] at hstate
      exact ⟨by simp [hstate], by simp [hstate], by simp [hone, hstate, hcancelled]⟩
    · rw [if_neg hcancelled] at hstate
      cases herror : settlement.error? with
      | none =>
          rw [herror] at hstate
          exact ⟨by simp [hstate, hone, herror], by simp [hstate, hone, herror],
            by simp [hstate, hone, hcancelled]⟩
      | some error =>
          rw [herror] at hstate
          exact ⟨by simp [hstate, hone, herror], by simp [hstate, hone, herror],
            by simp [hstate, hone, hcancelled]⟩

/-! ## The policy over whole runs -/

/-- The run of a task whose body has ended and that is still to be settled has a worker, or it has
been lost, as the clock cannot be read. -/
theorem Sound.of_unsettled (hsound : scheduler.Sound) {error? : Option TaskError}
    (hunsettled : error? ∈ scheduler.unsettled task) :
    (∃ job ∈ scheduler.jobs, job.task = task ∧ job.stage = .left error?) ∨
      scheduler.agenda.clock.isReadable = false ∧ .uncounted task error? ∈ scheduler.lost := by
  obtain ⟨stage, hphase, hleft⟩ := Option.bind_eq_some_iff.mp (Option.mem_toList.mp hunsettled)
  have hstage : stage = .left error? := by
    cases stage with
    | left found? => rw [Option.some.inj hleft]
    | inside | rearmed | refused => simp [Stage.left?] at hleft
  subst hstage
  rcases mem_phases.mp (hsound.phase?_eq_some_iff.mp hphase) with
    ⟨job, hjob, -, htask, hstage⟩ | ⟨found?, hlost, hsame⟩
  · exact Or.inl ⟨job, hjob, htask, hstage⟩
  · obtain rfl := Stage.left.inj hsame
    refine Or.inr ⟨?_, hlost⟩
    by_contra hreadable
    rw [(hsound.intact (Bool.not_eq_false _ ▸ hreadable)).1] at hlost
    exact List.not_mem_nil hlost

/-- In every run of a scheduler, the bodies of a task that have ended are those of the runs that
have been settled, and one at most that is still to be settled: a worker is at it, unless it has
been lost, as the clock cannot be read.  If failures are to stop periodic
tasks, a run of a periodic task that has failed is its last one, and once it has been settled the
task has failed, or it has been cancelled before; it is not queued, and it never starts again.
If they are not, how a body has ended makes no difference to the state of its task, to when it is
due, to the queue and to all that can happen from there; the task is done only if it has been
cancelled, or if the next due time cannot be represented.  Whatever the policy, a one-shot task that
is not cancelled has completed or failed as its run has. -/
theorem Run.failure_policy (hrun : Run config cores past scheduler) {record : Record α}
    (hrecord : scheduler.record? task = some record) :
    (endings past task).map Ending.error? =
        (settlements past task).map Settlement.error? ++ scheduler.unsettled task ∧
      (scheduler.unsettled task).length ≤ 1 ∧
      (∀ error? ∈ scheduler.unsettled task,
        (∃ job ∈ scheduler.jobs, job.task = task ∧ job.stage = .left error?) ∨
          scheduler.agenda.clock.isReadable = false ∧ .uncounted task error? ∈ scheduler.lost) ∧
      (record.isPeriodic = true → config.policy = .stop →
        StopsAtFailure past task scheduler record) ∧
      (record.isPeriodic = true → config.policy = .keepGoing →
        GoesOnAfterFailure past task scheduler record) ∧
      (record.isPeriodic = false → EndsAsItsRun past task record) :=
  ⟨hrun.errors_eq task, scheduler.length_unsettled_le task,
    fun _ hunsettled => hrun.reachable.sound.of_unsettled hunsettled,
    fun _ hpolicy => hrun.stopsAtFailure hrecord hpolicy,
    hrun.goesOnAfterFailure hrecord, hrun.endsAsItsRun hrecord⟩

/-- A task with a period of a second fails in its first run, and the run is settled. -/
def failingOnce : List (Action Unit) :=
  [.request (.schedule { plainTask (.fixedRate (.ofSeconds 1)) .zero with
      script := fun _ => { ending := .error "refused" } } true),
    .proceed 0, .dispatch, .dispatch, .takeUp 0, .work 0, .work 0]

/-- Under one policy the task has failed, and under the other it is pending again. -/
theorem failure_policy_of_either :
    (∃ (past : List (Scheduler Unit × Action Unit)) (scheduler : Scheduler Unit)
      (record : Record Unit), Run { policy := .stop } 1 past scheduler ∧
      scheduler.record? 0 = some record ∧ record.isPeriodic = true ∧ record.state = .failed ∧
      (settlements past 0).map Settlement.error? = [some (.failed "refused")] ∧
      StopsAtFailure past 0 scheduler record) ∧
    ∃ (past : List (Scheduler Unit × Action Unit)) (scheduler : Scheduler Unit)
      (record : Record Unit), Run {} 1 past scheduler ∧
      scheduler.record? 0 = some record ∧ record.isPeriodic = true ∧ record.state = .pending ∧
      (settlements past 0).map Settlement.error? = [some (.failed "refused")] ∧
      GoesOnAfterFailure past 0 scheduler record := by
  have hstop : (played { policy := .stop } 1 failingOnce).map (fun result =>
      ((result.2.record? 0).map fun record => (record.schedule, record.state),
        (settlements result.1 0).map Settlement.error?)) =
      some (some (.fixedRate (.ofSeconds 1), .failed), [some (.failed "refused")]) := by
    decide +kernel
  have hgoOn : (played {} 1 failingOnce).map (fun result =>
      ((result.2.record? 0).map fun record => (record.schedule, record.state),
        (settlements result.1 0).map Settlement.error?)) =
      some (some (.fixedRate (.ofSeconds 1), .pending), [some (.failed "refused")]) := by
    decide +kernel
  have hperiodic : ∀ {record : Record Unit}, record.schedule = .fixedRate (.ofSeconds 1) →
      record.isPeriodic = true := by
    intro record hschedule
    rw [Record.isPeriodic, hschedule]
    rfl
  constructor
  · obtain ⟨⟨past, scheduler⟩, hplayed, hparts⟩ := Option.map_eq_some_iff.mp hstop
    obtain ⟨hfound, herrors⟩ := Prod.mk.inj hparts
    obtain ⟨record, hrecord, hshape⟩ := Option.map_eq_some_iff.mp hfound
    obtain ⟨hschedule, hstate⟩ := Prod.mk.inj hshape
    have hrun := Run.of_played hplayed
    obtain ⟨-, -, -, hstops, -⟩ := hrun.failure_policy hrecord
    exact ⟨past, scheduler, record, hrun, hrecord, hperiodic hschedule, hstate, herrors,
      hstops (hperiodic hschedule) rfl⟩
  · obtain ⟨⟨past, scheduler⟩, hplayed, hparts⟩ := Option.map_eq_some_iff.mp hgoOn
    obtain ⟨hfound, herrors⟩ := Prod.mk.inj hparts
    obtain ⟨record, hrecord, hshape⟩ := Option.map_eq_some_iff.mp hfound
    obtain ⟨hschedule, hstate⟩ := Prod.mk.inj hshape
    have hrun := Run.of_played hplayed
    obtain ⟨-, -, -, -, hgoesOn, -⟩ := hrun.failure_policy hrecord
    exact ⟨past, scheduler, record, hrun, hrecord, hperiodic hschedule, hstate, herrors,
      hgoesOn (hperiodic hschedule) rfl⟩

end Scheduler

end TimedTasks
